import HclExport.Text.Padding

/-!
# Names of resources

Labels are free text; names in a configuration are made of letters, digits, underscores
and hyphens. A label becomes a name by writing every other character as its code point
between hyphens, behind a common head.

## Main definitions

* `nameHead` — the head of every name.
* `isLegal`, `escapeLabel` — legal characters, and labels made of them.
* `sanitize`, `sanitizeComposite` — the name of a label and of several labels.
* `stripHead` — a name without its head.
-/

namespace HclExport

/-- The head of every name. -/
def nameHead : String := "pingcli__"

/-- The characters that a name may hold. -/
def isLegal (c : Char) : Bool :=
  c.isAlphanum || c == '_' || c == '-'

/-- One character of a label: itself, or its code point with at least four digits. -/
def escapeLabelChar (c : Char) : List Char :=
  if isLegal c then [c] else '-' :: capitalHexDigits 4 c.toNat ++ ['-']

/-- A label in legal characters. -/
def escapeLabel (label : String) : String :=
  String.ofList (label.toList.flatMap escapeLabelChar)

/-- The name of a label. -/
def sanitize (label : String) : String :=
  nameHead ++ escapeLabel label

/-- The name of several labels together. -/
def sanitizeComposite (labels : List String) : String :=
  nameHead ++ "_".intercalate (labels.map escapeLabel)

/-- The name without its head, if it has one. -/
def stripHead (name : String) : String :=
  let cs := name.toList
  if nameHead.toList.isPrefixOf cs then String.ofList (cs.drop nameHead.length) else name

end HclExport
