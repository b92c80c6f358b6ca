import HclExport.Conversion.Application
import Mathlib.Data.List.Find

/-!
# Objects that differ in one member

What is read from a document does not depend on members that are not looked at.

## Main definitions

* `Members.SameBut` — objects that agree on every member but one.

## Main results

* `Members.SameBut.requireText`, `Members.SameBut.resourceId`, `Members.SameBut.objectItems` — what
  is read from other members.
-/

namespace HclExport

/-- Objects that agree on every member but one. -/
def Members.SameBut (key : String) (a b : Members) : Prop :=
  ∀ other, other ≠ key → a.get? other = b.get? other

namespace Members.SameBut

variable {key : String} {a b : Members}

theorem get (h : SameBut key a b) {other : String} (hother : other ≠ key) :
    a.get other = b.get other := by
  unfold Members.get
  rw [h other hother]

theorem text (h : SameBut key a b) {other : String} (hother : other ≠ key) :
    a.text other = b.text other := by
  unfold Members.text
  rw [h.get hother]

theorem inner (h : SameBut key a b) {other : String} (hother : other ≠ key) :
    a.inner other = b.inner other := by
  unfold Members.inner
  rw [h.get hother]

theorem flag? (h : SameBut key a b) {other : String} (hother : other ≠ key) :
    a.flag? other = b.flag? other := by
  unfold Members.flag?
  rw [h.get hother]

theorem number? (h : SameBut key a b) {other : String} (hother : other ≠ key) :
    a.number? other = b.number? other := by
  unfold Members.number?
  rw [h.get hother]

theorem requireText (h : SameBut key a b) {other : String} (hother : other ≠ key)
    (hid : "id" ≠ key) (kind : Kind) (label : String) :
    HclExport.requireText kind a other label = HclExport.requireText kind b other label := by
  unfold HclExport.requireText requiredFault
  rw [h.text hother, h.text hid]

theorem textPair (h : SameBut key a b) {other : String} (hother : other ≠ key) (name : String) :
    HclExport.textPair a other name = HclExport.textPair b other name := by
  unfold HclExport.textPair
  rw [h.text hother]

theorem flagPair (h : SameBut key a b) {other : String} (hother : other ≠ key) (name : String) :
    HclExport.flagPair a other name = HclExport.flagPair b other name := by
  unfold HclExport.flagPair
  rw [h.flag? hother]

theorem numberPair (h : SameBut key a b) {other : String} (hother : other ≠ key) (name : String) :
    HclExport.numberPair a other name = HclExport.numberPair b other name := by
  unfold HclExport.numberPair
  rw [h.number? hother]

theorem objectItems (h : SameBut key a b) {other : String} (hother : other ≠ key) (name : String)
    (body : Members → List Hcl.Item) :
    HclExport.objectItems a other name body = HclExport.objectItems b other name body := by
  unfold HclExport.objectItems
  rw [h.get hother]

theorem resourceId (h : SameBut key a b) {kind : Kind}
    (hid : ∀ member ∈ kind.idMembers, member ≠ key) :
    HclExport.resourceId kind a = HclExport.resourceId kind b := by
  have hsame : ∀ member ∈ kind.idMembers,
      (a.text member != "") = (b.text member != "") := by
    intro member hmember
    rw [h.text (hid member hmember)]
  unfold HclExport.resourceId
  rw [List.find?_congr hsame]
  cases hfound : kind.idMembers.find? fun member => b.text member != "" with
  | none => rfl
  | some member =>
    dsimp only
    rw [h.text (hid member (List.mem_of_find?_eq_some hfound))]

end Members.SameBut

end HclExport
