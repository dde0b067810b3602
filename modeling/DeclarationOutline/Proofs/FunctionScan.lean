import DeclarationOutline.Proofs.HeaderPlaces

/-! Which functions a scan reports. A function header stands at a span of the text
or does not, whatever stands elsewhere; the scan reports all of them except those
in the argument list of another one, which end at the same brace. -/
namespace DeclarationOutline

open Text

/-- A function header stands from `start` to `stop`, and no control word turns it
into a statement. -/
structure FunctionAt (text : List Char) (start stop : Nat) (h : FunctionHeader) : Prop where
  starts : StartsAt text start
  inside : stop ≤ text.length
  spelled : text.extract start stop = h.spelling
  wellFormed : h.WellFormed
  free : ¬ FollowsControlWord text start

theorem FunctionAt.stands {text : List Char} {start stop : Nat} {h : FunctionHeader}
    (hat : FunctionAt text start stop h) :
    h.spelling <+: text.drop start ∧ start + h.spelling.length = stop :=
  (extract_eq_iff hat.wellFormed.headerLike.ne_nil).mp ⟨hat.inside, hat.spelled⟩

theorem FunctionAt.foundAt {text : List Char} {start stop : Nat} {h : FunctionHeader}
    (hat : FunctionAt text start stop h) :
    Rule.foundAt functionRule text start = some (h.signature, stop - start) := by
  obtain ⟨hstands, hstop⟩ := hat.stands
  have hinside := hat.inside
  apply functionRule_eq_some_iff.mpr
  refine ⟨(atBoundary_iff_startsAt (by omega)).mpr hat.starts, ?_, h, hat.wellFormed, hstands, ?_⟩
  · rw [← Bool.not_eq_true, afterControl_iff_followsControlWord]
    exact hat.free
  · rw [← hstop, Nat.add_sub_cancel_left]

theorem exists_functionAt {text : List Char} {start : Nat} {found : Signature × Nat}
    (hfound : Rule.foundAt functionRule text start = some found) :
    ∃ h, FunctionAt text start (start + found.2) h ∧ h.signature = found.1 := by
  obtain ⟨hboundary, hfree, h, hformed, hstands, rfl⟩ := functionRule_eq_some_iff.mp hfound
  obtain ⟨hinside, hspelled⟩ :=
    (extract_eq_iff hformed.headerLike.ne_nil).mpr ⟨hstands, rfl⟩
  refine ⟨h, ⟨?_, hinside, hspelled, hformed, ?_⟩, rfl⟩
  · exact (atBoundary_iff_startsAt (by omega)).mp hboundary
  · rw [← afterControl_iff_followsControlWord, hfree]
    simp

/-- A declaration that says what a function header says. -/
structure FunctionHeader.DeclaredBy (h : FunctionHeader) (start stop : Nat) (d : Declaration) :
    Prop where
  kind : d.signature.kind = .function
  name : d.signature.name = String.ofList h.name
  returnType : d.signature.returnType = String.ofList h.type
  rawParameters : d.signature.rawParameters = String.ofList (trim h.arguments)
  exported : d.signature.exported = false
  offset : d.offset = start
  length : d.length = stop - start

theorem FunctionHeader.declaredBy_iff {h : FunctionHeader} {start stop : Nat} {d : Declaration} :
    h.DeclaredBy start stop d ↔ d = ⟨h.signature, start, stop - start⟩ := by
  constructor
  · rintro ⟨hkind, hname, htype, hraw, -, hoffset, hlength⟩
    obtain ⟨signature, offset, length⟩ := d
    cases signature with
    | function name type raw =>
        simp only [Signature.name, Signature.returnType, Signature.rawParameters] at *
        rw [FunctionHeader.signature, hname, htype, hraw, hoffset, hlength]
    | testcase name exported => simp [Signature.kind] at hkind
  · rintro rfl
    exact ⟨rfl, rfl, rfl, rfl, rfl, rfl, rfl⟩

/-- A text's functions, in order and each one once. Offsets increase strictly, so
no span is reported twice. -/
theorem functions_exact (text : String) :
    ((declarations .function text).Pairwise fun a b => a.offset < b.offset) ∧
      ∀ d, d ∈ declarations .function text ↔
        ∃ start stop h, FunctionAt text.toList start stop h ∧
          (∀ earlier < start, ∀ other, ¬ FunctionAt text.toList earlier stop other) ∧
            h.DeclaredBy start stop d := by
  refine ⟨declarations_ordered .function text, fun d => ?_⟩
  rw [mem_declarations_iff]
  constructor
  · rintro ⟨hfound, hfirst⟩
    obtain ⟨h, hat, hsignature⟩ := exists_functionAt hfound
    refine ⟨d.offset, d.offset + d.length, h, hat, ?_, ?_⟩
    · intro earlier hearlier other hother
      exact hfirst earlier hearlier _ hother.foundAt (by have := hother.stands; omega)
    · rw [FunctionHeader.declaredBy_iff, hsignature, Nat.add_sub_cancel_left]
  · rintro ⟨start, stop, h, hat, hfirst, hdeclared⟩
    obtain rfl := FunctionHeader.declaredBy_iff.mp hdeclared
    refine ⟨hat.foundAt, ?_⟩
    intro earlier hearlier other hother hsame
    obtain ⟨otherHeader, hotherAt, -⟩ := exists_functionAt hother
    have hstop := hat.stands
    rw [hsame, Nat.add_sub_cancel' (by simp only; omega)] at hotherAt
    exact hfirst earlier hearlier otherHeader hotherAt

example : declarations .function "if void f() {} void g(int h() {}" =
    [⟨.function "g" "void" "int h(", 15, 16⟩] := by
  decide +kernel

end DeclarationOutline
