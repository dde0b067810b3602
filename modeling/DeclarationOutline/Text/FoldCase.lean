/-! Comparison without regard to ASCII case. -/
namespace DeclarationOutline.Text

/-- The text with its ASCII capitals made small and all else kept. -/
def foldCase (text : String) : String :=
  String.ofList (text.toList.map Char.toLower)

/-- Whether `a` may stand before `b` when case is ignored. -/
def foldedLE (a b : String) : Bool :=
  foldCase a ≤ foldCase b

end DeclarationOutline.Text
