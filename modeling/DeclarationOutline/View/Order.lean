import DeclarationOutline.Error

/-! The two orders in which a group can be shown. -/
namespace DeclarationOutline

inductive ViewOrder where
  | position
  | alphabetical
  deriving DecidableEq, Repr

/-- The order of the text unless the user prefers another. -/
instance : Inhabited ViewOrder := ⟨.position⟩

namespace ViewOrder

def name : ViewOrder → String
  | position => "position"
  | alphabetical => "alphabetical"

def ofName (given : String) : Except Error ViewOrder :=
  if given = "position" then .ok position
  else if given = "alphabetical" then .ok alphabetical
  else .error (.unknownOrder given)

@[simp] theorem ofName_name (order : ViewOrder) : ofName order.name = .ok order := by
  cases order <;> rfl

end ViewOrder

end DeclarationOutline
