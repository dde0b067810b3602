import DeclarationOutline.Proofs.HeaderPlaces

/-! Which testcases a scan reports. Every place where `testcase` and the rest of a
header stand belongs to one report, which starts at `export` if that word leads up
to the place. A header without arguments can be read from its brace backwards, so
the place where its text ends says where its word `testcase` is. -/
namespace DeclarationOutline

open Text TestcaseHeader

/-- A testcase header, seen from its word `testcase` on, stands from `place` to `stop`. -/
structure TestcaseAt (text : List Char) (place stop : Nat) (h : TestcaseHeader) : Prop where
  starts : StartsAt text place
  inside : stop ≤ text.length
  plain : h.exportGap = none
  spelled : text.extract place stop = h.spelling
  wellFormed : h.WellFormed

/-- The word `export` and blanks lead from `start` up to `place`. -/
def ExportBefore (text : List Char) (start place : Nat) : Prop :=
  StartsAt text start ∧ ∃ gap, gap ≠ [] ∧ (∀ c ∈ gap, isBlank c = true) ∧
    text.extract start place = exportWord ++ gap

theorem append_run_inj {α : Type} {p : α → Bool} {front front' run run' : List α}
    (hrun : ∀ c ∈ run, p c = true) (hrun' : ∀ c ∈ run', p c = true)
    (hstop : ∀ c ∈ front.getLast?, p c = false) (hstop' : ∀ c ∈ front'.getLast?, p c = false)
    (heq : front ++ run = front' ++ run') : front = front' := by
  have hread : ∀ {front run : List α}, (∀ c ∈ run, p c = true) →
      (∀ c ∈ front.getLast?, p c = false) →
        (front ++ run).reverse.span p = (run.reverse, front.reverse) := by
    intro front run hrun hstop
    rw [List.reverse_append]
    apply span_append
    · simpa using hrun
    · simpa using hstop
  have hreads := hread hrun hstop
  rw [heq, hread hrun' hstop', Prod.mk.injEq] at hreads
  exact (List.reverse_inj.mp hreads.2).symm

theorem getLast?_append_of_ne_nil {α : Type} {p : α → Bool} {front run : List α} (hne : run ≠ [])
    (hrun : ∀ c ∈ run, p c = false) : ∀ c ∈ (front ++ run).getLast?, p c = false := by
  intro c hc
  rw [List.getLast?_append_of_ne_nil _ hne] at hc
  exact hrun c (List.mem_of_getLast? hc)

theorem body_append_inj {h h' : TestcaseHeader} (hformed : h.WellFormed) (hformed' : h'.WellFormed)
    {front front' : List Char} (heq : front ++ h.body = front' ++ h'.body) : front = front' := by
  have hlayout : ∀ (h : TestcaseHeader) (front : List Char), front ++ h.body =
      front ++ testcaseWord ++ h.gap ++ h.name ++ h.beforeParen ++ ['('] ++ h.insideParens ++
        [')'] ++ h.beforeBrace ++ ['{'] := by
    intro h front
    simp [body]
  have hnotBlank : ∀ {h : TestcaseHeader}, h.WellFormed → ∀ c ∈ h.name, isBlank c = false := by
    intro h hformed c hc
    exact isBlank_eq_false_of_isNameChar (isNameChar_of_isIdentifier hformed.name_identifier c hc)
  have hnotName : ∀ {h : TestcaseHeader}, h.WellFormed → ∀ c ∈ h.gap, isNameChar c = false := by
    intro h hformed c hc
    exact isNameChar_eq_false_of_isBlank (hformed.gap_blank c hc)
  rw [hlayout, hlayout] at heq
  -- Part by part from the brace to the front; each ends where its class of characters ends.
  have hclose := append_run_inj hformed.beforeBrace_blank hformed'.beforeBrace_blank
    (getLast?_append_of_ne_nil (by simp) (List.forall_mem_singleton.mpr rfl))
    (getLast?_append_of_ne_nil (by simp) (List.forall_mem_singleton.mpr rfl))
    (List.append_cancel_right heq)
  have hopen := append_run_inj hformed.insideParens_blank hformed'.insideParens_blank
    (getLast?_append_of_ne_nil (by simp) (List.forall_mem_singleton.mpr rfl))
    (getLast?_append_of_ne_nil (by simp) (List.forall_mem_singleton.mpr rfl))
    (List.append_cancel_right hclose)
  have hname := append_run_inj hformed.beforeParen_blank hformed'.beforeParen_blank
    (getLast?_append_of_ne_nil (ne_nil_of_isIdentifier hformed.name_identifier)
      (hnotBlank hformed))
    (getLast?_append_of_ne_nil (ne_nil_of_isIdentifier hformed'.name_identifier)
      (hnotBlank hformed')) (List.append_cancel_right hopen)
  have hgap := append_run_inj (isNameChar_of_isIdentifier hformed.name_identifier)
    (isNameChar_of_isIdentifier hformed'.name_identifier)
    (getLast?_append_of_ne_nil hformed.gap_ne_nil (hnotName hformed))
    (getLast?_append_of_ne_nil hformed'.gap_ne_nil (hnotName hformed')) hname
  have hword := append_run_inj hformed.gap_blank hformed'.gap_blank
    (getLast?_append_of_ne_nil (by decide) isBlank_of_mem_testcaseWord)
    (getLast?_append_of_ne_nil (by decide) isBlank_of_mem_testcaseWord) hgap
  exact List.append_cancel_right hword

theorem take_append_extract {α : Type} (text : List α) {start stop : Nat} (hle : start ≤ stop) :
    text.take start ++ text.extract start stop = text.take stop := by
  rw [List.extract_eq_take_drop, ← List.take_add, Nat.add_sub_cancel' hle]

theorem extract_append_extract {α : Type} (text : List α) {start middle stop : Nat}
    (hstart : start ≤ middle) (hstop : middle ≤ stop) :
    text.extract start middle ++ text.extract middle stop = text.extract start stop := by
  apply (List.append_right_inj (text.take start)).mp
  rw [← List.append_assoc, take_append_extract text hstart, take_append_extract text hstop,
    take_append_extract text (hstart.trans hstop)]

theorem TestcaseAt.stands {text : List Char} {place stop : Nat} {h : TestcaseHeader}
    (hat : TestcaseAt text place stop h) :
    h.spelling <+: text.drop place ∧ place + h.spelling.length = stop :=
  (extract_eq_iff hat.wellFormed.headerLike.ne_nil).mp ⟨hat.inside, hat.spelled⟩

theorem TestcaseAt.lt {text : List Char} {place stop : Nat} {h : TestcaseHeader}
    (hat : TestcaseAt text place stop h) : place < stop := by
  have hpos := hat.wellFormed.headerLike.length_pos
  have hstop := hat.stands.2
  omega

theorem TestcaseAt.spelling_eq {text : List Char} {place stop : Nat} {h : TestcaseHeader}
    (hat : TestcaseAt text place stop h) : h.spelling = h.body := by
  simp [spelling, hat.plain]

/-- The brace of a testcase header tells where its word `testcase` is. -/
theorem TestcaseAt.place_eq {text : List Char} {place place' stop : Nat} {h h' : TestcaseHeader}
    (hat : TestcaseAt text place stop h) (hat' : TestcaseAt text place' stop h') :
    place = place' := by
  have hfront : text.take place ++ h.body = text.take place' ++ h'.body := by
    rw [← hat.spelling_eq, ← hat'.spelling_eq, ← hat.spelled, ← hat'.spelled,
      take_append_extract text hat.lt.le, take_append_extract text hat'.lt.le]
  have hlength := congrArg List.length (body_append_inj hat.wellFormed hat'.wellFormed hfront)
  have hinside := hat.inside
  have hlt := hat.lt
  have hlt' := hat'.lt
  rw [List.length_take, List.length_take] at hlength
  omega

theorem ExportBefore.lt {text : List Char} {start place : Nat}
    (hexport : ExportBefore text start place) : start < place := by
  obtain ⟨-, gap, hgap, -, hspelled⟩ := hexport
  have hlength := congrArg List.length hspelled
  have hpos := List.length_pos_of_ne_nil hgap
  rw [List.extract_eq_take_drop, List.length_take, List.length_append] at hlength
  omega

theorem ExportBefore.start_eq {text : List Char} {start start' place : Nat}
    (hexport : ExportBefore text start place) (hexport' : ExportBefore text start' place)
    (hplace : place ≤ text.length) : start = start' := by
  have hlt := hexport.lt
  have hlt' := hexport'.lt
  obtain ⟨-, gap, -, hgap, hspelled⟩ := hexport
  obtain ⟨-, gap', -, hgap', hspelled'⟩ := hexport'
  have hfront : text.take start ++ exportWord ++ gap = text.take start' ++ exportWord ++ gap' := by
    rw [List.append_assoc, List.append_assoc, ← hspelled, ← hspelled',
      take_append_extract text hlt.le, take_append_extract text hlt'.le]
  have hword := append_run_inj hgap hgap'
    (getLast?_append_of_ne_nil (by decide) isBlank_of_mem_exportWord)
    (getLast?_append_of_ne_nil (by decide) isBlank_of_mem_exportWord) hfront
  have hlength := congrArg List.length (List.append_cancel_right hword)
  rw [List.length_take, List.length_take] at hlength
  omega

theorem foundAt_of_stands {text : List Char} {start stop : Nat} {h : TestcaseHeader}
    (hstarts : StartsAt text start) (hformed : h.WellFormed) (hinside : stop ≤ text.length)
    (hspelled : text.extract start stop = h.spelling) :
    Rule.foundAt testcaseRule text start = some (h.signature, stop - start) := by
  obtain ⟨hstands, hstop⟩ := (extract_eq_iff hformed.headerLike.ne_nil).mp ⟨hinside, hspelled⟩
  apply testcaseRule_eq_some_iff.mpr
  refine ⟨(atBoundary_iff_startsAt (by omega)).mpr hstarts, h, hformed, hstands, ?_⟩
  rw [← hstop, Nat.add_sub_cancel_left]

theorem TestcaseAt.foundAt {text : List Char} {place stop : Nat} {h : TestcaseHeader}
    (hat : TestcaseAt text place stop h) : Rule.foundAt testcaseRule text place =
      some (.testcase (String.ofList h.name) false, stop - place) := by
  rw [foundAt_of_stands hat.starts hat.wellFormed hat.inside hat.spelled]
  simp [TestcaseHeader.signature, exported, hat.plain]

theorem TestcaseAt.foundAt_export {text : List Char} {start place stop : Nat} {h : TestcaseHeader}
    (hat : TestcaseAt text place stop h) (hexport : ExportBefore text start place) :
    Rule.foundAt testcaseRule text start =
      some (.testcase (String.ofList h.name) true, stop - start) := by
  have hlt := hexport.lt
  have hlt' := hat.lt
  obtain ⟨hstarts, gap, hgap, hblank, hspelled⟩ := hexport
  have hwhole : text.extract start stop = (h.withExport gap).spelling := by
    rw [← extract_append_extract text hlt.le hlt'.le, hspelled, hat.spelled, hat.spelling_eq,
      spelling_withExport]
  rw [foundAt_of_stands hstarts (hat.wellFormed.withExport hgap hblank) hat.inside hwhole]
  rfl

theorem startsAt_of_blanks {text front gap : List Char} {place : Nat} (hplace : place ≤ text.length)
    (htake : text.take place = front ++ gap) (hne : gap ≠ [])
    (hblank : ∀ c ∈ gap, isBlank c = true) : StartsAt text place := by
  rw [← atBoundary_iff_startsAt hplace, htake, List.reverse_append]
  obtain ⟨last, earlier, hlast⟩ := List.exists_cons_of_ne_nil (List.reverse_ne_nil_iff.mpr hne)
  rw [hlast]
  exact hblank last (List.mem_reverse.mp (by simp [hlast]))

theorem exists_testcaseAt {text : List Char} {start : Nat} {found : Signature × Nat}
    (hfound : Rule.foundAt testcaseRule text start = some found) :
    ∃ place h, TestcaseAt text place (start + found.2) h ∧
      (start = place ∧ found.1 = .testcase (String.ofList h.name) false ∨
        ExportBefore text start place ∧ found.1 = .testcase (String.ofList h.name) true) := by
  obtain ⟨hboundary, h, hformed, hstands, rfl⟩ := testcaseRule_eq_some_iff.mp hfound
  obtain ⟨hinside, hspelled⟩ :=
    (extract_eq_iff hformed.headerLike.ne_nil).mpr ⟨hstands, rfl⟩
  have hstarts := (atBoundary_iff_startsAt (by omega)).mp hboundary
  cases hexport : h.exportGap with
  | none =>
      refine ⟨start, h, ⟨hstarts, hinside, hexport, hspelled, hformed⟩, .inl ⟨rfl, ?_⟩⟩
      simp [TestcaseHeader.signature, exported, hexport]
  | some gap =>
      have hgap : gap ≠ [] := fun hnil => hformed.exportGap_ne_nil (hnil ▸ hexport)
      have hblank := hformed.exportGap_blank gap hexport
      have hspelling : h.spelling = exportWord ++ gap ++ h.body := by simp [spelling, hexport]
      rw [hspelling] at hstands
      -- The spelling falls into `export` with its gap and the header behind it.
      let place := start + (exportWord ++ gap).length
      have hplace : start + h.spelling.length = place + h.body.length := by
        simp only [hspelling, place, List.length_append]
        omega
      obtain ⟨hplaceInside, hleads⟩ := (extract_eq_iff (by simp [hgap])).mpr
        ⟨(List.prefix_append _ _).trans hstands, (rfl : _ = place)⟩
      have hbody : h.body <+: text.drop place := by
        have hdrop := hstands.drop (exportWord ++ gap).length
        rwa [List.drop_left, List.drop_drop] at hdrop
      have htake : text.take place = text.take start ++ exportWord ++ gap := by
        rw [List.append_assoc, ← hleads, take_append_extract text (by omega)]
      have hplain := hformed.withoutExport
      obtain ⟨hinside, hspelled⟩ :=
        (extract_eq_iff hplain.headerLike.ne_nil).mpr ⟨hbody, rfl⟩
      rw [hplace]
      refine ⟨place, h.withoutExport, ⟨?_, hinside, rfl, hspelled, hplain⟩, .inr ⟨?_, ?_⟩⟩
      · exact startsAt_of_blanks hplaceInside htake hgap hblank
      · exact ⟨hstarts, gap, hgap, hblank, hleads⟩
      · simp [TestcaseHeader.signature, exported, hexport, withoutExport]

/-- A declaration that says what a testcase header says. It starts at `export` if
that word leads up to the header, and otherwise at the header. -/
structure TestcaseHeader.DeclaredBy (h : TestcaseHeader) (text : List Char) (place stop : Nat)
    (d : Declaration) : Prop where
  kind : d.signature.kind = .testcase
  name : d.signature.name = String.ofList h.name
  returnType : d.signature.returnType = "void"
  rawParameters : d.signature.rawParameters = ""
  exported : d.signature.exported = true ↔ ∃ start, ExportBefore text start place
  start_export : ∀ start, ExportBefore text start place → d.offset = start
  start_plain : (¬ ∃ start, ExportBefore text start place) → d.offset = place
  stop : d.offset + d.length = stop

theorem TestcaseHeader.DeclaredBy.eq {h : TestcaseHeader} {text : List Char} {place stop : Nat}
    {d d' : Declaration} (hd : h.DeclaredBy text place stop d)
    (hd' : h.DeclaredBy text place stop d') : d = d' := by
  have hoffset : d.offset = d'.offset := by
    by_cases hexport : ∃ start, ExportBefore text start place
    · obtain ⟨start, hstart⟩ := hexport
      rw [hd.start_export start hstart, hd'.start_export start hstart]
    · rw [hd.start_plain hexport, hd'.start_plain hexport]
  have hlength : d.length = d'.length := by
    have hstop := hd.stop
    have hstop' := hd'.stop
    omega
  have hsignature : d.signature = d'.signature := by
    have hkind := hd.kind
    have hkind' := hd'.kind
    have hname := hd.name.trans hd'.name.symm
    have hexported := hd.exported.trans hd'.exported.symm
    cases hs : d.signature with
    | function => simp [hs, Signature.kind] at hkind
    | testcase =>
        cases hs' : d'.signature with
        | function => simp [hs', Signature.kind] at hkind'
        | testcase =>
            simp only [hs, hs', Signature.name, Signature.exported, ← Bool.eq_iff_iff]
              at hname hexported
            rw [hname, hexported]
  cases d
  cases d'
  simp_all

/-- A header that ends with another one starts at its word `testcase` or at the
`export` before it. -/
theorem TestcaseAt.start_of_foundAt {text : List Char} {place stop start : Nat}
    {h : TestcaseHeader} {found : Signature × Nat} (hat : TestcaseAt text place stop h)
    (hfound : Rule.foundAt testcaseRule text start = some found) (hstop : start + found.2 = stop) :
    start = place ∨ ExportBefore text start place := by
  obtain ⟨other, h', hother, hcase⟩ := exists_testcaseAt hfound
  rw [hstop] at hother
  rw [hat.place_eq hother]
  exact hcase.imp And.left And.left

theorem TestcaseAt.exists_declared {text : String} {place stop : Nat} {h : TestcaseHeader}
    (hat : TestcaseAt text.toList place stop h) :
    ∃ d ∈ declarations .testcase text, h.DeclaredBy text.toList place stop d := by
  have hlt := hat.lt
  by_cases hexport : ∃ start, ExportBefore text.toList start place
  · obtain ⟨start, hstart⟩ := hexport
    have hstartLt := hstart.lt
    have hunique : ∀ other, ExportBefore text.toList other place → start = other := by
      intro other hother
      exact hstart.start_eq hother (hlt.le.trans hat.inside)
    refine ⟨⟨.testcase (String.ofList h.name) true, start, stop - start⟩, ?_,
      rfl, rfl, rfl, rfl, by simpa [Signature.exported] using ⟨start, hstart⟩, hunique,
      fun hnone => absurd ⟨start, hstart⟩ hnone, by simp only; omega⟩
    apply mem_declarations_iff.mpr
    refine ⟨hat.foundAt_export hstart, ?_⟩
    intro earlier hearlier other hother hsame
    simp only at hearlier hsame
    rcases hat.start_of_foundAt hother (by omega) with rfl | hbefore
    · omega
    · have heq := hunique earlier hbefore
      omega
  · refine ⟨⟨.testcase (String.ofList h.name) false, place, stop - place⟩, ?_,
      rfl, rfl, rfl, rfl, by simpa [Signature.exported] using hexport,
      fun start hstart => absurd ⟨start, hstart⟩ hexport, fun _ => rfl, by simp only; omega⟩
    apply mem_declarations_iff.mpr
    refine ⟨hat.foundAt, ?_⟩
    intro earlier hearlier other hother hsame
    simp only at hearlier hsame
    rcases hat.start_of_foundAt hother (by omega) with rfl | hbefore
    · omega
    · exact hexport ⟨earlier, hbefore⟩

theorem exists_testcaseAt_of_mem {text : String} {d : Declaration}
    (hmem : d ∈ declarations .testcase text) :
    ∃ place h, TestcaseAt text.toList place (d.offset + d.length) h ∧
      h.DeclaredBy text.toList place (d.offset + d.length) d := by
  obtain ⟨place, h, hat, -⟩ := exists_testcaseAt (foundAt_of_mem_declarations hmem)
  obtain ⟨other, hother, hdeclared⟩ := hat.exists_declared
  obtain rfl : other = d := eq_of_mem_declarations hother hmem hdeclared.stop
  exact ⟨place, h, hat, hdeclared⟩

/-- A text's testcases, in order and apart from each other: one for each place
where a header stands, and one such place for each. -/
theorem testcases_exact (text : String) :
    ((declarations .testcase text).Pairwise fun a b => a.offset < b.offset) ∧
      ((declarations .testcase text).Pairwise fun a b => a.offset + a.length ≤ b.offset) ∧
      (∀ place stop h, TestcaseAt text.toList place stop h →
        ∃! d, d ∈ declarations .testcase text ∧ h.DeclaredBy text.toList place stop d) ∧
      ∀ d ∈ declarations .testcase text,
        ∃! place, ∃ stop h, TestcaseAt text.toList place stop h ∧
          h.DeclaredBy text.toList place stop d := by
  refine ⟨declarations_ordered .testcase text, declarations_disjoint .testcase text, ?_, ?_⟩
  · intro place stop h hat
    obtain ⟨d, hmem, hdeclared⟩ := hat.exists_declared
    exact ⟨d, ⟨hmem, hdeclared⟩, fun other hother => hother.2.eq hdeclared⟩
  · intro d hmem
    obtain ⟨place, h, hat, hdeclared⟩ := exists_testcaseAt_of_mem hmem
    refine ⟨place, ⟨_, h, hat, hdeclared⟩, ?_⟩
    rintro other ⟨stop, h', hother, hdeclared'⟩
    rw [← hdeclared'.stop] at hother
    exact hother.place_eq hat

example : declarations .testcase "export export testcase testcase() {}" =
    [⟨.testcase "testcase" true, 7, 28⟩] := by
  decide +kernel

end DeclarationOutline
