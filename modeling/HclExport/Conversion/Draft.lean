import HclExport.Conversion.Context

/-!
# Drafts

A draft is a block, or a part of one, in which the references are still to be written: it
asks for them one after the other, and goes on with how each is written.

## Main definitions

* `Request` — a reference that is asked for.
* `Draft`, `Draft.ask` — computations that ask for references and may fail.
* `Draft.write` — a draft with its references written in a context.
-/

namespace HclExport

/-- A reference that is asked for: the resource and the field that hold it, and an id. -/
structure Request where
  source : Resource
  field : String
  targetId : String
  deriving DecidableEq

/-- A computation that asks for references and may fail. -/
inductive Draft (α : Type) where
  /-- Nothing is asked for any more. -/
  | done (result : Except Failure α)
  /-- Ask for a reference, and go on with how it is written. -/
  | refer (request : Request) (next : Hcl.Expression → Draft α)

namespace Draft

variable {α β : Type}

/-- One draft after another, unless the first fails. -/
def bind : Draft α → (α → Draft β) → Draft β
  | .done (.ok a), f => f a
  | .done (.error failure), _ => .done (.error failure)
  | .refer request next, f => .refer request fun reference => (next reference).bind f

instance : Monad Draft where
  pure a := .done (.ok a)
  bind := Draft.bind

/-- What asks for nothing is a draft. -/
instance : MonadLift (Except Failure) Draft where
  monadLift := .done

/-- Ask for one reference. -/
def ask (request : Request) : Draft Hcl.Expression :=
  .refer request fun reference => .done (.ok reference)

/-- The draft with its references written in a context, each when it is asked for. -/
def write (context : Context) : Draft α → Conversion α
  | .done result => liftM result
  | .refer request next => do
    let reference ← context.referenceFor request.source request.field request.targetId "id"
    (next reference).write context

end Draft

end HclExport
