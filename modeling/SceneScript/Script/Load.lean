import SceneScript.Script.Declare
import SceneScript.Script.Node.Statement

/-! # Loading scripts

A script is loaded as a whole: when anything in it is wrong, the index stays as it was.
-/
namespace SceneScript.Script
open SceneScript.Error (quoted)

/-- Do some work on the index, and undo it if it fails. What was logged stays logged. -/
def allOrNothing {α : Type} (work : Declaring α) : Declaring α := fun index =>
  let o := work index
  match o.result with
  | .ok _ => o
  | .error _ => { o with state := index }

def loadSource (config : Config) (file source : String) : Declaring (List System) :=
  allOrNothing do
    let tree ← Action.ofExcept (Node.ofSource file source)
    let systems ← declare config tree
    Action.log .info ("Loaded " ++ quoted file ++ " with " ++ toString systems.length ++ " systems")
    return systems

/-- What is found under the path of a script. -/
inductive Content where
  | missing
  | bytes (data : ByteArray)

def Content.text : Content → Except LoadFault String
  | .missing => .error (.unreadable "No such file or directory (os error 2)")
  | .bytes data =>
    match String.fromUTF8? data with
    | some text => .ok text
    | none => .error (.unreadable "stream did not contain valid UTF-8")

/-- Load the content of a file. Content that cannot be read has no place in it. -/
def loadFile (config : Config) (path : String) (content : Content) : Declaring (List System) :=
  match content.text with
  | .ok source => loadSource config path source
  | .error fault => Action.fail ⟨path, 0, 0, fault⟩

end SceneScript.Script
