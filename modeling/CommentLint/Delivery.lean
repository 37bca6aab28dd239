import CommentLint.Config.Basic
import CommentLint.FileTree.Write

/-
  Delivering a report to the screen or to a file.

  Directories above the file that are missing are made.  A
  report without text shows nothing on the screen, and leaves
  an empty file.

  Key definitions include:
    * `Delivery`
    * `DeliveryError`
    * `FileTree.deliver`
-/

namespace CommentLint

/- What is shown, and the tree with what is written. -/
structure Delivery where
  shown : String
  tree : FileTree
deriving Repr

/- Why a report cannot be delivered. -/
inductive DeliveryError where
| access (cause : PathError)
| setting (cause : SettingError)
deriving DecidableEq, Repr

/- The message of an error. -/
def DeliveryError.message : DeliveryError → String
  | .access cause => cause.message
  | .setting cause => cause.message

/- A report as it is delivered: a line end follows its text. -/
def deliveredText (report : String) : String :=
  if report.isEmpty then "" else report ++ "\n"

namespace FileTree

/- Write a report to a file. -/
def writeReport
    (t : FileTree)
    (p : Path)
    (report : String) : Except PathError FileTree :=
  match t.makeDirectories p.parent with
  | .error e => .error e
  | .ok t =>
      t.write p (Utf8.encodeString (deliveredText report))

/- Deliver a report to where a setting says; null is the screen. -/
def deliver
    (t : FileTree)
    (out : Setting)
    (report : String) : Except DeliveryError Delivery :=
  match out with
  | .null => .ok ⟨deliveredText report, t⟩
  | .text path =>
      match t.writeReport (Path.ofString path) report with
      | .ok t => .ok ⟨"", t⟩
      | .error e => .error (.access e)
  | _ => .error (.setting .notPath)

end FileTree

end CommentLint
