import HclExport.Graph.Report

/-!
# Described faults

A fault can be described by an argument and the members of an object. Any part of it may
then be a value of any kind; some of these have no text, and then neither has the fault.

## Main definitions

* `FaultDescription`, `FaultDescription.ofMembers` — a described fault.
* `FaultDescription.text` — its one-line text, if there is one.
* `FaultDescription.ofFault` — the description of a fault, which has the same text.
-/

namespace HclExport

/-- A fault whose parts may be values of any kind. -/
structure FaultDescription where
  kind : FaultKind
  message : Json
  code : Json
  /-- The details; only an object has a text. -/
  context : Json
  /-- The text of the cause, if there is a cause. -/
  cause : Except Failure (Option String)
  advice : Json

namespace FaultDescription

/-! ### Reading -/

/-- The names of the members that describe any fault. -/
def commonNames : List String :=
  ["error_code", "context", "cause", "recovery_suggestion"]

/-- The message of a kind of fault: those of cycles and invalid graphs are made of the parts
of the argument. -/
def messageOf (kind : FaultKind) (argument : Json) : Except Failure Json :=
  match kind, argument.elements? with
  | .cyclic, some parts => .ok (.str (cycleMessage (parts.map Json.display)))
  | .invalidGraph, some parts =>
    match parts.mapM Json.text? with
    | some issues => .ok (.str (Graph.issuesMessage issues))
    | none => .error .mistyped
  | .cyclic, none => .error .mistyped
  | .invalidGraph, none => .error .mistyped
  | _, _ => .ok argument

/-- The context that the members give, with the details of the kind in it. Details can be
added to an object only. -/
def contextOf (kind : FaultKind) (members : Members) : Except Failure Json :=
  let given := kind.detailNames.filterMap fun name =>
    (members.get? name).map fun value => (name, value)
  let details := given.filter fun detail => detail.2.isTruthy
  match members.get? "context" with
  | none => .ok (.obj (Fault.addDetails [] details))
  | some (.obj context) => .ok (.obj (Fault.addDetails context details))
  | some other =>
    if !details.isEmpty then .error .mistyped
    else .ok (if other.isTruthy then other else .obj [])

/-- The fault of a kind that an argument and members describe, with the defaults of the kind
for what they leave open. A cause from elsewhere takes the place of the one they give. -/
def ofMembers (kind : FaultKind) (argument : Json) (members : Members)
    (cause? : Option (Except Failure String)) : Except Failure FaultDescription := do
  if members.any fun m => !(commonNames ++ kind.detailNames).contains m.1 then
    .error .mistyped
  let message ← messageOf kind argument
  let context ← contextOf kind members
  let given := members.get "cause"
  return {
    kind := kind
    message := message
    code := (members.get? "error_code").getD (.ofText? kind.code?)
    context := context
    cause := match cause? with
      | some cause => cause.map some
      | none => .ok (if given.isTruthy then some given.display else none)
    advice := (members.get? "recovery_suggestion").getD (.ofText? kind.advice?) }

/-! ### Text -/

/-- Say something more, unless there is nothing to say. Behind a text it is added to the text,
and behind an array to the items, character by character; to nothing else can it be added. -/
def sayMore (said : Json) (more : String) : Except Failure Json :=
  if more = "" then .ok said
  else match said with
    | .str s => .ok (.str (s ++ more))
    | .arr items => .ok (.arr (items ++ more.toList.map fun c => .str (String.singleton c)))
    | _ => .error .mistyped

/-- The details in a text, empty when there are none. -/
def contextText : Json → Except Failure String
  | .obj context =>
    .ok (if context.isEmpty then "" else " (context: " ++ Fault.contextText context ++ ")")
  | other => if other.isTruthy then .error .unsupported else .ok ""

/-- The cause in a text, empty when there is none. -/
def causeText : Option String → String
  | none => ""
  | some s => " (caused by: " ++ s ++ ")"

/-- The advice in a text, empty when there is none. -/
def adviceText (advice : Json) : String :=
  if advice.isTruthy then " (suggestion: " ++ advice.display ++ ")" else ""

/-- What is said first: the message, in a text behind the code if there is one. -/
def start (described : FaultDescription) : Json :=
  if described.code.isTruthy then
    .str ("[" ++ described.code.display ++ "] " ++ described.message.display)
  else described.message

/-- The fault in one line: code, message, details, cause and advice. What was said has to be a
text in the end. -/
def text (described : FaultDescription) : Except Failure String := do
  let said ← sayMore described.start (← contextText described.context)
  let said ← sayMore said (causeText (← described.cause))
  match ← sayMore said (adviceText described.advice) with
  | .str s => .ok s
  | _ => .error .mistyped

/-! ### Faults -/

/-- The description of a fault. -/
def ofFault (fault : Fault) : FaultDescription where
  kind := fault.kind
  message := .str fault.message
  code := .ofText? fault.code
  context := .obj fault.context
  cause := .ok fault.cause
  advice := .ofText? fault.advice

theorem sayMore_str (s more : String) : sayMore (.str s) more = .ok (.str (s ++ more)) := by
  by_cases h : more = "" <;> simp [sayMore, h]

theorem adviceText_ofText? (advice : Option String) :
    adviceText (.ofText? advice) = Fault.clause " (suggestion: " advice ")" := by
  cases advice with
  | none => rfl
  | some s =>
    by_cases h : s = "" <;> simp [adviceText, Fault.clause, Json.ofText?, Json.isTruthy, h]

theorem start_ofFault (fault : Fault) :
    (ofFault fault).start = .str (Fault.clause "[" fault.code "] " ++ fault.message) := by
  obtain ⟨_, _, code, _, _, _⟩ := fault
  cases code with
  | none => simp [start, ofFault, Fault.clause, Json.ofText?, Json.isTruthy]
  | some s =>
    by_cases h : s = "" <;> simp [start, ofFault, Fault.clause, Json.ofText?, Json.isTruthy, h]

/-- A fault and its description have the same text. -/
theorem text_ofFault (fault : Fault) : (ofFault fault).text = .ok fault.text := by
  have hContext : contextText (ofFault fault).context = .ok
      (if fault.context.isEmpty then "" else
        " (context: " ++ Fault.contextText fault.context ++ ")") := rfl
  have hCause : (ofFault fault).cause = .ok fault.cause := rfl
  have hAdvice : (ofFault fault).advice = .ofText? fault.advice := rfl
  simp only [text, start_ofFault, hContext, hCause, hAdvice, adviceText_ofText?, bind,
    Except.bind, sayMore_str]
  cases h : fault.cause <;> simp [Fault.text, causeText, h]

end FaultDescription

end HclExport
