import OrgTree.Command.Error

/-!
# Where commands run

A `Host` is what a command needs from its surroundings: files, environment variables and two streams
for output. The operations live in a monad of the host's choice, so that commands run on the system
and on a folder in memory alike.
-/

namespace OrgTree.Command

/-- What a command needs from its surroundings. -/
structure Host (m : Type → Type) where
  read : String → m (Except FileFault String)
  write : String → String → m (Except FileFault Unit)
  /-- Whether there is anything at a path. -/
  isThere : String → m Bool
  environment : String → m (Option String)
  /-- Writes a text to the output. -/
  out : String → m Unit
  /-- Writes a text to the output for warnings. -/
  err : String → m Unit

end OrgTree.Command
