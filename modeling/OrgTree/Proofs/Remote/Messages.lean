import OrgTree.Remote.Messages

/-!
# The error reports of an answer

An answer may report errors in an object anywhere in its body. The search for their messages enters
every item of an array and every member of an object, except the members that hold reports: a report
is read, but what lies inside it is not. So the search finds the reports that lie in no other one, and
no others.

## Main definitions

- `Json.Within`: a value inside another one, below members with certain keys
- `Remote.Reported`: an error is reported somewhere in a body
- `Remote.ReportedOutside`, `Remote.ReportedInside`: the report lies in no other one, or in one
- `Remote.SeesReports`: no report of a body is overlooked

## Main statements

- `Remote.mem_allMessages_iff`: what the search finds
- `Remote.seesReports_iff`: the messages that are found, and the answers that count as failures
- `Remote.not_seesReports_nestedReport`: an answer with a report inside another one
-/

namespace OrgTree

namespace Json

/-- The value is the other one or lies inside it, as an item of arrays and below members of objects
whose keys may be entered. -/
inductive Within (enters : String → Prop) (j : Json) : Json → Prop where
  | self : Within enters j j
  | item {xs : List Json} {x : Json} (hx : x ∈ xs) (h : Within enters j x) : Within enters j (.arr xs)
  | member {ms : Members} {k : String} {v : Json} (hm : (k, v) ∈ ms) (hk : enters k)
    (h : Within enters j v) : Within enters j (.obj ms)

variable {enters enters' : String → Prop} {i j k : Json}

/-- A text under a key. -/
theorem bind_text?_eq_some_iff {value : Option Json} {s : String} :
    value.bind text? = some s ↔ value = some (.str s) := by
  rw [Option.bind_eq_some_iff]
  constructor
  · rintro ⟨v, rfl, htext⟩
    cases v <;> cases htext
    rfl
  · rintro rfl
    exact ⟨.str s, rfl, rfl⟩

theorem Within.mono (h : i.Within enters j) (henters : ∀ k, enters k → enters' k) :
    i.Within enters' j := by
  induction h with
  | self => exact .self
  | item hx _ ih => exact .item hx ih
  | member hm hk _ ih => exact .member hm (henters _ hk) ih

theorem Within.trans (hij : i.Within enters j) (hjk : j.Within enters k) : i.Within enters k := by
  induction hjk with
  | self => exact hij
  | item hx _ ih => exact .item hx ih
  | member hm hk _ ih => exact .member hm hk ih

end Json

namespace Remote

open Json

variable {m : String} {j v body : Json} {ms : Members} {xs : List Json}

/-! ### Reports -/

/-- The value is a list of reports, one of which has this message. -/
def ListsMessage (m : String) (v : Json) : Prop :=
  ∃ reports, v = .arr reports ∧ ∃ r ∈ reports, r.get? "message" = some (.str m)

/-- The value is an object with a list of error reports, one of which has this message. -/
def HasReport (m : String) (j : Json) : Prop :=
  ∃ ms v, j = .obj ms ∧ ("errorReports", v) ∈ ms ∧ ListsMessage m v

/-- An object somewhere in the body reports an error with this message. -/
def Reported (m : String) (body : Json) : Prop :=
  ∃ j, j.Within (fun _ => True) body ∧ HasReport m j

/-- An object that does not lie in the reports of another one reports an error with this message. -/
def ReportedOutside (m : String) (body : Json) : Prop :=
  ∃ j, j.Within (· ≠ "errorReports") body ∧ HasReport m j

/-- An object that lies in the reports of another one reports an error with this message. -/
def ReportedInside (m : String) (body : Json) : Prop :=
  ∃ ms v, (Json.obj ms).Within (· ≠ "errorReports") body ∧ ("errorReports", v) ∈ ms ∧ Reported m v

theorem ReportedOutside.reported (h : ReportedOutside m body) : Reported m body := by
  obtain ⟨j, hj, hreport⟩ := h
  exact ⟨j, hj.mono fun _ _ => trivial, hreport⟩

theorem ReportedInside.reported (h : ReportedInside m body) : Reported m body := by
  obtain ⟨ms, v, hms, hv, j, hj, hreport⟩ := h
  exact ⟨j, (hj.trans (.member hv trivial .self)).trans (hms.mono fun _ _ => trivial), hreport⟩

/-- A report lies in no other one or in one that lies in no other. -/
theorem reported_iff : Reported m body ↔ ReportedOutside m body ∨ ReportedInside m body := by
  refine ⟨?_, fun h => h.elim ReportedOutside.reported ReportedInside.reported⟩
  rintro ⟨j, hj, hreport⟩
  induction hj with
  | self => exact .inl ⟨j, .self, hreport⟩
  | item hx _ ih =>
    rcases ih with ⟨j, hj, hreport⟩ | ⟨ms, v, hms, hv, hinner⟩
    · exact .inl ⟨j, .item hx hj, hreport⟩
    · exact .inr ⟨ms, v, .item hx hms, hv, hinner⟩
  | @member ms k v hm _ hinner ih =>
    by_cases hk : k = "errorReports"
    · -- the first member with reports on the way down
      subst hk
      exact .inr ⟨ms, v, .self, hm, j, hinner, hreport⟩
    · rcases ih with ⟨j, hj, hreport⟩ | ⟨ns, w, hns, hw, hinner⟩
      · exact .inl ⟨j, .member hm hk hj, hreport⟩
      · exact .inr ⟨ns, w, .member hm hk hns, hw, hinner⟩

/-! ### The search -/

theorem mem_reportMessages_iff : m ∈ reportMessages v ↔ ListsMessage m v := by
  rw [reportMessages, List.mem_filterMap]
  simp only [bind_text?_eq_some_iff]
  cases v <;> simp [items?, ListsMessage]

theorem mem_memberMessages_iff :
    m ∈ memberMessages ms ↔
      ∃ k v, (k, v) ∈ ms ∧ m ∈ if k = "errorReports" then reportMessages v else allMessages v := by
  induction ms with
  | nil => simp [memberMessages]
  | cons n ms ih =>
    obtain ⟨k, v⟩ := n
    rw [memberMessages, List.mem_append, ih]
    constructor
    · rintro (h | ⟨k', v', hm, h⟩)
      · exact ⟨k, v, List.mem_cons_self, h⟩
      · exact ⟨k', v', List.mem_cons_of_mem _ hm, h⟩
    · rintro ⟨k', v', hm, h⟩
      rcases List.mem_cons.1 hm with heq | hm
      · cases heq
        exact .inl h
      · exact .inr ⟨k', v', hm, h⟩

theorem mem_itemMessages_iff : m ∈ itemMessages xs ↔ ∃ x ∈ xs, m ∈ allMessages x := by
  induction xs with
  | nil => simp [itemMessages]
  | cons x xs ih => rw [itemMessages, List.mem_append, ih]; simp

theorem HasReport.mem_allMessages (h : HasReport m j) : m ∈ allMessages j := by
  obtain ⟨ms, v, rfl, hv, hlist⟩ := h
  rw [allMessages, mem_memberMessages_iff]
  refine ⟨_, v, hv, ?_⟩
  rw [if_pos rfl, mem_reportMessages_iff]
  exact hlist

/-- What is found in a value is found in all that it lies in, except in reports. -/
theorem mem_allMessages_of_within (hj : j.Within (· ≠ "errorReports") body)
    (h : m ∈ allMessages j) : m ∈ allMessages body := by
  induction hj with
  | self => exact h
  | item hx _ ih =>
    rw [allMessages, mem_itemMessages_iff]
    exact ⟨_, hx, ih⟩
  | member hm hk _ ih =>
    rw [allMessages, mem_memberMessages_iff]
    refine ⟨_, _, hm, ?_⟩
    rw [if_neg hk]
    exact ih

/-- Nothing is found but what is reported. -/
theorem reportedOutside_of_mem (body : Json) (h : m ∈ allMessages body) :
    ReportedOutside m body := by
  match body with
  | .arr xs =>
    rw [allMessages, mem_itemMessages_iff] at h
    obtain ⟨x, hx, h⟩ := h
    obtain ⟨j, hj, hreport⟩ := reportedOutside_of_mem x h
    exact ⟨j, .item hx hj, hreport⟩
  | .obj ms =>
    rw [allMessages, mem_memberMessages_iff] at h
    obtain ⟨k, v, hm, h⟩ := h
    split at h
    · rename_i hk
      subst hk
      exact ⟨.obj ms, .self, ms, v, rfl, hm, mem_reportMessages_iff.1 h⟩
    · rename_i hk
      obtain ⟨j, hj, hreport⟩ := reportedOutside_of_mem v h
      exact ⟨j, .member hm hk hj, hreport⟩
  | .null | .bool _ | .num _ | .str _ | .unreadable => simp [allMessages] at h
termination_by sizeOf body
decreasing_by
  · have := List.sizeOf_lt_of_mem hx
    simp only [Json.arr.sizeOf_spec]
    omega
  · have := List.sizeOf_lt_of_mem hm
    simp only [Json.obj.sizeOf_spec, Prod.mk.sizeOf_spec] at this ⊢
    omega

theorem mem_allMessages_iff : m ∈ allMessages body ↔ ReportedOutside m body := by
  constructor
  · exact reportedOutside_of_mem body
  · rintro ⟨j, hj, hreport⟩
    exact mem_allMessages_of_within hj hreport.mem_allMessages

/-! ### Failures -/

/-- The status of the answer or of its response is an error. -/
def HasErrorStatus (body : Json) : Prop :=
  body.get? "status" = some (.str "ERROR") ∨
    ∃ response, body.get? "response" = some response ∧
      response.get? "status" = some (.str "ERROR")

theorem hasErrorStatus_iff : hasErrorStatus j = true ↔ j.get? "status" = some (.str "ERROR") := by
  rw [hasErrorStatus, decide_eq_true_eq, bind_text?_eq_some_iff]

theorem isErrorStatus_iff : isErrorStatus body = true ↔ HasErrorStatus body := by
  rw [isErrorStatus, Bool.or_eq_true, hasErrorStatus_iff, Option.any_eq_true]
  simp only [hasErrorStatus_iff]
  rfl

/-- An answer without reports gives its own message when its status is an error. -/
theorem mem_errorMessages_iff :
    m ∈ errorMessages body ↔ m ∈ allMessages body ∨
      allMessages body = [] ∧ HasErrorStatus body ∧ body.get? "message" = some (.str m) := by
  rw [errorMessages]
  split
  · rename_i hnone
    rw [hnone]
    split
    · rename_i hstatus
      rw [Option.mem_toList, bind_text?_eq_some_iff]
      simp [isErrorStatus_iff.1 hstatus]
    · rename_i hstatus
      rw [isErrorStatus_iff] at hstatus
      simp [hstatus]
  · rename_i hsome
    exact ⟨.inl, fun h => h.resolve_right fun hnone => hsome hnone.1⟩

/-- Every message that is reported somewhere is found, and the answer counts as a failure exactly when
its status says so or something is reported. -/
def SeesReports (body : Json) : Prop :=
  (∀ m, Reported m body → m ∈ errorMessages body) ∧
    (isSoftError body = true ↔ HasErrorStatus body ∨ ∃ m, Reported m body)

/-- An answer counts as a failure when its status says so or when a message is found. -/
theorem isSoftError_iff :
    isSoftError body = true ↔ HasErrorStatus body ∨ ∃ m, m ∈ errorMessages body := by
  rw [isSoftError, Bool.or_eq_true, isErrorStatus_iff, Bool.not_eq_true',
    List.isEmpty_eq_false_iff_exists_mem]

/-- The messages that are found are those of the reports that lie in no other one, or else the one of
the answer itself, and an answer counts as a failure accordingly. So no report is overlooked exactly
when the messages of the reports that lie in other ones are found anyway. -/
theorem seesReports_iff (body : Json) :
    (∀ m, m ∈ errorMessages body ↔ ReportedOutside m body ∨
      (∀ m', ¬ ReportedOutside m' body) ∧ HasErrorStatus body ∧
        body.get? "message" = some (.str m)) ∧
    (isSoftError body = true ↔ HasErrorStatus body ∨ ∃ m, ReportedOutside m body) ∧
    (SeesReports body ↔ ∀ m, ReportedInside m body → m ∈ errorMessages body) := by
  have hnone : allMessages body = [] ↔ ∀ m, ¬ ReportedOutside m body := by
    simp only [List.eq_nil_iff_forall_not_mem, mem_allMessages_iff]
  have hfound : ∀ m, m ∈ errorMessages body ↔ ReportedOutside m body ∨
      (∀ m', ¬ ReportedOutside m' body) ∧ HasErrorStatus body ∧
        body.get? "message" = some (.str m) := by
    intro m
    rw [mem_errorMessages_iff, mem_allMessages_iff, hnone]
  have hsoft : isSoftError body = true ↔ HasErrorStatus body ∨ ∃ m, ReportedOutside m body := by
    rw [isSoftError_iff]
    constructor
    · rintro (hstatus | ⟨m, hm⟩)
      · exact .inl hstatus
      · rcases (hfound m).1 hm with hm | ⟨-, hstatus, -⟩
        · exact .inr ⟨m, hm⟩
        · exact .inl hstatus
    · exact Or.imp_right fun ⟨m, hm⟩ => ⟨m, (hfound m).2 (.inl hm)⟩
  refine ⟨hfound, hsoft, fun h m hm => h.1 m hm.reported, fun h => ?_⟩
  have hall : ∀ m, Reported m body → m ∈ errorMessages body := by
    intro m hm
    rcases reported_iff.1 hm with hm | hm
    · exact (hfound m).2 (.inl hm)
    · exact h m hm
  refine ⟨hall, ?_⟩
  constructor
  · intro h
    exact (hsoft.1 h).imp_right fun ⟨m, hm⟩ => ⟨m, hm.reported⟩
  · intro h
    exact isSoftError_iff.2 (h.imp_right fun ⟨m, hm⟩ => ⟨m, hall m hm⟩)

/-- An object that reports one error. -/
def innerReport : Json :=
  .obj [("errorReports", .arr [.obj [("message", .str "Inner")]])]

/-- An answer whose only error report has no message and reports an error in turn. -/
def nestedReport : Json :=
  .obj [("errorReports", .arr [innerReport])]

/-- The only message of the answer is not found, and the answer passes for a success. -/
theorem not_seesReports_nestedReport :
    Reported "Inner" nestedReport ∧ errorMessages nestedReport = [] ∧
      isSoftError nestedReport = false ∧ ¬ SeesReports nestedReport := by
  have hinner : HasReport "Inner" innerReport :=
    ⟨_, _, rfl, List.mem_singleton_self _, _, rfl, _, List.mem_singleton_self _, rfl⟩
  have hwithin : innerReport.Within (fun _ => True) nestedReport :=
    .member (List.mem_singleton_self _) trivial (.item (List.mem_singleton_self _) .self)
  have hreported : Reported "Inner" nestedReport := ⟨innerReport, hwithin, hinner⟩
  exact ⟨hreported, rfl, rfl, fun h => List.not_mem_nil (h.1 "Inner" hreported)⟩

end Remote

end OrgTree
