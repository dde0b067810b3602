import DeclarationOutline.Proofs.ScanPlaces

/-! How the declarations of a text depend on its parts. More text behind a text only
adds declarations behind those it has, and what follows a finished statement is
scanned as if it stood alone. Both hold because an incomplete header cannot enclose
a complete one, and because no header reaches across `);`. -/
namespace DeclarationOutline

/-- The same declaration, further into a longer text. -/
def Declaration.movedBy (distance : Nat) (d : Declaration) : Declaration :=
  { d with offset := d.offset + distance }

namespace Rule.Lawful

variable {rule : Rule}

/-- A header that only the longer text completes starts behind every header of the
shorter one. -/
theorem scan_eq_nil_of_completed (hlawful : rule.Lawful) {text more : List Char} {place : Nat}
    {found : Signature × Nat} (hnone : rule.foundAt text place = none)
    (hfound : rule.foundAt (text ++ more) place = some found) : rule.scan text place = [] := by
  rw [List.eq_nil_iff_forall_not_mem]
  intro d hmem
  obtain ⟨hle, hd⟩ := foundAt_of_mem_scan hlawful hmem
  have hend := hlawful.end_le hd
  have hpos := hlawful.length_pos hd
  have hopen : text.length < place + found.2 := by
    by_contra hcomplete
    rw [hlawful.foundAt_of_append hfound (by omega)] at hnone
    contradiction
  have hsame := hlawful.end_eq_of_overlap hfound (hlawful.foundAt_append hd more) hle
    (by simp only at hend hpos; omega)
  omega

theorem scan_append (hlawful : rule.Lawful) (text more : List Char) (place : Nat) :
    rule.scan text place <+: rule.scan (text ++ more) place := by
  induction place using scan_induction hlawful text with
  | atEnd place hend =>
      rw [scan_of_length_le hend]
      exact List.nil_prefix
  | passes place hplace hnone ih =>
      cases hlonger : rule.foundAt (text ++ more) place with
      | none =>
          rw [scan_of_none hnone, scan_of_none hlonger]
          exact ih
      | some found =>
          rw [hlawful.scan_eq_nil_of_completed hnone hlonger]
          exact List.nil_prefix
  | finds place found hfound ih =>
      rw [scan_of_some hlawful hfound, scan_of_some hlawful (hlawful.foundAt_append hfound more)]
      exact List.cons_prefix_cons.mpr ⟨rfl, ih⟩

theorem end_le_of_stopped (hlawful : rule.Lawful) {front rest : List Char} {place : Nat}
    {found : Signature × Nat} (hplace : place ≤ front.length)
    (hfound : rule.foundAt (front ++ ')' :: ';' :: rest) place = some found) :
    place + found.2 ≤ front.length := by
  obtain ⟨spelling, hheader, hlength, hstands, -⟩ := hlawful.spelled hfound
  rw [List.drop_append_of_le_length hplace] at hstands
  have hfits := hheader.closes.length_le_of_stopped hstands
  rw [hlength, List.length_drop] at hfits
  omega

theorem scan_stopped (hlawful : rule.Lawful) (front rest : List Char) {place : Nat}
    (hplace : place ≤ front.length) :
    rule.scan (front ++ ')' :: ';' :: rest) place =
      rule.scan front place ++ rule.scan (front ++ ')' :: ';' :: rest) front.length := by
  induction place using scan_induction hlawful front with
  | atEnd place hend =>
      obtain rfl : place = front.length := by omega
      rw [scan_of_length_le hend, List.nil_append]
  | passes place hinside hnone ih =>
      have hlonger : rule.foundAt (front ++ ')' :: ';' :: rest) place = none := by
        cases hfound : rule.foundAt (front ++ ')' :: ';' :: rest) place with
        | none => rfl
        | some found =>
            have hend := hlawful.end_le_of_stopped hplace hfound
            rw [hlawful.foundAt_of_append hfound hend] at hnone
            contradiction
      rw [scan_of_none hnone, scan_of_none hlonger, ih (by omega)]
  | finds place found hfound ih =>
      have hlonger := hlawful.foundAt_append hfound (')' :: ';' :: rest)
      rw [scan_of_some hlawful hfound, scan_of_some hlawful hlonger,
        ih (hlawful.end_le hfound), List.cons_append]

theorem foundAt_eq_none (hlawful : rule.Lawful) {text : List Char} {place : Nat} {c : Char}
    (hplace : text[place]? = some c) (hc : isNameChar c = false) :
    rule.foundAt text place = none := by
  cases hfound : rule.foundAt text place with
  | none => rfl
  | some found =>
      obtain ⟨hlt, rfl⟩ := List.getElem?_eq_some_iff.mp hplace
      obtain ⟨spelling, hheader, -, hstands, -⟩ := hlawful.spelled hfound
      obtain ⟨first, later, rfl, hfirst⟩ := hheader.starts
      rw [List.drop_eq_getElem_cons hlt, List.cons_prefix_cons] at hstands
      rw [hstands.1, hc] at hfirst
      contradiction

theorem foundAt_behind_line (hlawful : rule.Lawful) (front back : List Char) (place : Nat) :
    rule.foundAt (front ++ '\n' :: back) (front.length + 1 + place) = rule.foundAt back place := by
  have hplace : front.length + 1 + place = (front ++ ['\n']).length + place := by simp
  have htext : front ++ '\n' :: back = (front ++ ['\n']) ++ back := by simp
  unfold foundAt
  rw [hplace, htext, List.take_length_add_append, List.drop_length_add_append]
  simp only [List.reverse_append, List.reverse_cons, List.reverse_nil, List.nil_append,
    List.cons_append]
  exact hlawful.line _ _ _

theorem scan_behind_line (hlawful : rule.Lawful) (front back : List Char) (place : Nat) :
    rule.scan (front ++ '\n' :: back) (front.length + 1 + place) =
      (rule.scan back place).map (Declaration.movedBy (front.length + 1)) := by
  induction place using scan_induction hlawful back with
  | atEnd place hend =>
      have hlength : (front ++ '\n' :: back).length ≤ front.length + 1 + place := by
        simp only [List.length_append, List.length_cons]
        omega
      rw [scan_of_length_le hend, scan_of_length_le hlength, List.map_nil]
  | passes place hplace hnone ih =>
      have hmoved := hlawful.foundAt_behind_line front back place
      rw [hnone] at hmoved
      rw [scan_of_none hnone, scan_of_none hmoved, Nat.add_assoc, ih]
  | finds place found hfound ih =>
      have hmoved := hlawful.foundAt_behind_line front back place
      rw [hfound] at hmoved
      rw [scan_of_some hlawful hfound, scan_of_some hlawful hmoved, Nat.add_assoc _ place, ih,
        List.map_cons]
      simp only [Declaration.movedBy, Nat.add_comm]

theorem scan_separated (hlawful : rule.Lawful) (front back : List Char) :
    rule.scan (front ++ ')' :: ';' :: '\n' :: back) 0 =
      rule.scan front 0 ++ (rule.scan back 0).map (Declaration.movedBy (front.length + 3)) := by
  let text := front ++ ')' :: ';' :: '\n' :: back
  have hline : text = (front ++ [')', ';']) ++ '\n' :: back := by simp [text]
  -- None of the three characters between the parts starts a header.
  have hskipped : rule.scan text front.length = rule.scan text (front.length + 3) := by
    have hparen : rule.foundAt text front.length = none :=
      hlawful.foundAt_eq_none (show text[front.length]? = some ')' by simp [text]) (by decide)
    have hsemicolon : rule.foundAt text (front.length + 1) = none :=
      hlawful.foundAt_eq_none (show text[front.length + 1]? = some ';' by simp [text]) (by decide)
    have hfeed : rule.foundAt text (front.length + 2) = none :=
      hlawful.foundAt_eq_none (show text[front.length + 2]? = some '\n' by simp [text]) (by decide)
    rw [scan_of_none hparen, scan_of_none hsemicolon, scan_of_none hfeed]
  have hback : rule.scan text (front.length + 3) =
      (rule.scan back 0).map (Declaration.movedBy (front.length + 3)) := by
    have hmoved := hlawful.scan_behind_line (front ++ [')', ';']) back 0
    rw [← hline] at hmoved
    simpa using hmoved
  rw [hlawful.scan_stopped front _ (Nat.zero_le _)]
  change rule.scan front 0 ++ rule.scan text front.length = _
  rw [hskipped, hback]

end Rule.Lawful

/-- A text behind `);` and a line feed is scanned as if it stood alone, and so is
the text before. -/
theorem declarations_separated (kind : Kind) (a b : String) :
    declarations kind (a ++ ");\n" ++ b) =
      declarations kind a ++ (declarations kind b).map (Declaration.movedBy (a.length + 3)) := by
  have htext : (a ++ ");\n" ++ b).toList = a.toList ++ ')' :: ';' :: '\n' :: b.toList := by
    simp [String.toList_append]
  rw [declarations_eq_scan, declarations_eq_scan, declarations_eq_scan, htext,
    kind.rule_lawful.scan_separated, String.length_toList]

end DeclarationOutline
