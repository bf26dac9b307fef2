import Intake.Text.Blank

/-!
# Code fences around a reply

A model may wrap its reply in a code fence although it is told not to.

* `isFence` is a closing fence line.
* `unfence` takes the fence away and trims the reply.
-/

namespace Intake.Text

/-- The characters that open and close a fenced block. -/
def fence : List Char := ['\x60', '\x60', '\x60']

/-- A line that holds a fence and nothing else but blanks. -/
def isFence (line : List Char) : Bool := trim line == fence

/-- The lines before the last closing fence, all lines if none closes. -/
def beforeLastFence (ls : List (List Char)) : List (List Char) :=
  match ls.reverse.dropWhile (! isFence ·) with
  | [] => ls
  | _ :: before => before.reverse

/-- Takes the fence away from a reply: its opening line with any language
tag, and what follows from the last closing fence on. A reply that does not
begin with a fence is only trimmed. -/
def unfence (reply : List Char) : List Char :=
  let text := trim reply
  if fence.isPrefixOf text then
    trim (joinWith ['\n'] (beforeLastFence (lines text).tail))
  else text

/-- `unfence` on strings. -/
def unfenced (reply : String) : String := String.ofList (unfence reply.toList)

end Intake.Text
