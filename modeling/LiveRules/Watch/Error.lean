import LiveRules.Files.Error
import LiveRules.Text.Inspect

/-!
# Why files cannot be watched
-/
namespace LiveRules.Watch

inductive WatchError where
  | noRuntime
  | noCallback
  | noPaths (name : String)
  /-- A path with no canonical place. -/
  | badPath (path : String) (cause : Files.ReadError)
  /-- A directory that cannot be listened to. -/
  | badDirectory (dir : String) (cause : Files.ReadError)
  deriving DecidableEq, Repr

namespace WatchError

/-- Why a directory cannot be listened to. -/
def directoryReason (dir : String) (cause : Files.ReadError) : String :=
  let about := " about " ++ Text.quotedList [dir]
  match cause with
  | .notFound => "No path was found." ++ about
  | cause => cause.message ++ about

def message : WatchError → String
  | noRuntime => "No async runtime available to drive the watcher"
  | noCallback => "Failed to initialize watcher: reload callback is required"
  | noPaths name => "Watcher for '" ++ name ++ "' has no paths to watch"
  | badPath path cause => "Cannot watch path " ++ path ++ ": " ++ cause.message
  | badDirectory dir cause =>
      "Cannot watch path " ++ dir ++ ": " ++ directoryReason dir cause

end WatchError

end LiveRules.Watch
