import DeclarationOutline.Proofs.ReadingBack
import DeclarationOutline.Report.Yaml

/-! Reading the lines of a report in YAML. A text is cut into lines, a line into its
indentation, its bullet, its key and its value, and a list of lines into blocks that
start with a line of a given look. A line that was spelled is read back. -/
namespace DeclarationOutline

open Text

/-- The text that a value stands for: empty quotes, a text in double quotes, or the value
as it is. -/
def scalar? (value : List Char) : Option String :=
  if value = ['\'', '\''] then some ""
  else if value.head? = some '"' then
    match unquote? value.tail with
    | some (text, []) => some (String.ofList text)
    | _ => none
  else some (String.ofList value)

theorem needsQuotes_of_indicator {text : String} {c : Char} (hc : c ∈ innerIndicators)
    (hmem : c ∈ text.toList) : needsQuotes text = true := by
  have hany : text.toList.any (· ∈ innerIndicators) = true :=
    List.any_eq_true.mpr ⟨c, hmem, by simpa using hc⟩
  simp [needsQuotes, hany]

theorem needsQuotes_of_head? {text : String} {c : Char} (hc : c ∈ leadingIndicators)
    (hhead : text.toList.head? = some c) : needsQuotes text = true := by
  simp [needsQuotes, hhead, hc]

theorem scalar?_quoted (text : String) : scalar? (quoted text) = some text := by
  have hread := unquote?_flatMap_escape text.toList []
  simp [scalar?, quoted, hread]

theorem scalar?_inlineText (text : String) : scalar? (inlineText text) = some text := by
  unfold inlineText
  split
  · rename_i hempty
    rw [String.isEmpty_iff.mp hempty]
    rfl
  · split
    · exact scalar?_quoted text
    · rename_i hplain
      -- A plain text starts with no quote of either sort.
      have hdouble : text.toList.head? ≠ some '"' :=
        fun hhead => hplain (needsQuotes_of_head? (by decide) hhead)
      have hsingle : text.toList ≠ ['\'', '\''] := by
        intro heq
        exact hplain (needsQuotes_of_head? (c := '\'') (by decide) (by rw [heq]; rfl))
      simp [scalar?, hsingle, hdouble]

theorem lineFeed_notMem_escape (c : Char) : '\n' ∉ escape c := by
  have hdigit : ∀ n < 16, '\n' ≠ hexDigit n := by decide
  unfold escape
  split_ifs
  all_goals try decide
  · have := hdigit (c.toNat / 16) (by omega)
    have := hdigit (c.toNat % 16) (by omega)
    simp_all
  · simp_all [eq_comm]

@[simp] theorem lineFeed_notMem_inlineText (text : String) : '\n' ∉ inlineText text := by
  unfold inlineText
  split
  · decide
  · split
    · simp [quoted, lineFeed_notMem_escape]
    · rename_i hplain
      intro hmem
      exact hplain (needsQuotes_of_indicator (by decide) hmem)

/-- A value with a colon in it is in quotes. -/
theorem colon_notMem_inlineText (text : String) :
    (inlineText text).head? = some '"' ∨ ':' ∉ inlineText text := by
  unfold inlineText
  split
  · right
    decide
  · split
    · left
      rfl
    · rename_i hplain
      right
      intro hmem
      exact hplain (needsQuotes_of_indicator (by decide) hmem)

@[simp] theorem fromDigits?_numberText (n : Nat) : fromDigits? (Report.numberText n) = some n := by
  rw [Report.numberText, Nat.toList_repr, fromDigits?_toDigits]

@[simp] theorem lineFeed_notMem_numberText (n : Nat) : '\n' ∉ Report.numberText n := by
  intro hmem
  rw [Report.numberText, Nat.toList_repr] at hmem
  exact absurd (isDigit_of_mem_toDigits n '\n' hmem) (by decide)

/-! Lines -/

def YamlItem.ofText (text : List Char) : YamlItem :=
  if text.head? = some '"' then item text
  else
    let key := String.ofList (text.takeWhile (· ≠ ':'))
    match text.dropWhile (· ≠ ':') with
    | [':'] => heading key
    | ':' :: ' ' :: value => field key value
    | _ => item text

def YamlLine.ofText (text : List Char) : YamlLine :=
  let indent := (text.takeWhile (· = ' ')).length
  match text.dropWhile (· = ' ') with
  | '-' :: ' ' :: rest => ⟨indent, true, .ofText rest⟩
  | rest => ⟨indent, false, .ofText rest⟩

/-- The lines of a text in which each ends with a line feed. -/
def YamlLine.readAll (text : List Char) : List YamlLine :=
  (text.splitOn '\n').dropLast.map ofText

def IsYamlKey (key : String) : Prop :=
  key.toList ≠ [] ∧ key.toList.all Char.isAlpha = true

instance (key : String) : Decidable (IsYamlKey key) :=
  inferInstanceAs (Decidable (_ ∧ _))

/-- What a line can say so that it is told apart from all else: a key has letters only,
and a list item with a colon in it is in quotes. -/
def YamlItem.Legible : YamlItem → Prop
  | heading key => IsYamlKey key
  | field key value => IsYamlKey key ∧ '\n' ∉ value
  | item value => '\n' ∉ value ∧ (value.head? = some '"' ∨ ':' ∉ value)

/-- Only behind a bullet does a line start with something else than a key. -/
def YamlLine.Legible (line : YamlLine) : Prop :=
  line.item.Legible ∧ (line.bullet = true ∨ ∀ value, line.item ≠ .item value)

theorem IsYamlKey.notMem {key : String} (hkey : IsYamlKey key) {c : Char}
    (hc : c.isAlpha = false) : c ∉ key.toList := by
  intro hmem
  rw [List.all_eq_true.mp hkey.2 c hmem] at hc
  contradiction

theorem YamlItem.ofText_key {key : String} (hkey : IsYamlKey key) (rest : List Char) :
    ofText (key.toList ++ ':' :: rest) =
      match ':' :: rest with
      | [':'] => heading key
      | ':' :: ' ' :: value => field key value
      | _ => item (key.toList ++ ':' :: rest) := by
  have hcolon : ∀ c ∈ key.toList, decide (c ≠ ':') = true := by
    intro c hc
    rw [decide_eq_true_eq]
    rintro rfl
    exact hkey.notMem (by decide) hc
  have hquote : (key.toList ++ ':' :: rest).head? ≠ some '"' := by
    obtain ⟨first, later, hfirst⟩ := List.exists_cons_of_ne_nil hkey.1
    rw [hfirst]
    rintro ⟨⟩
    exact hkey.notMem (c := '"') (by decide) (by simp [hfirst])
  unfold ofText
  rw [if_neg hquote, List.takeWhile_append_of_pos hcolon, List.dropWhile_append_of_pos hcolon]
  simp

theorem YamlItem.ofText_spelling {line : YamlItem} (h : line.Legible) :
    ofText line.spelling = line := by
  cases line with
  | heading key => exact ofText_key h []
  | field key value => exact ofText_key h.1 (' ' :: value)
  | item value =>
      obtain ⟨-, hquoted | hcolon⟩ := h
      · simp [spelling, ofText, hquoted]
      · have hdrop : value.dropWhile (· ≠ ':') = [] := by
          rw [List.dropWhile_eq_nil_iff]
          intro c hc
          rw [decide_eq_true_eq]
          rintro rfl
          exact hcolon hc
        rw [spelling, ofText]
        split
        · rfl
        · simp only [hdrop]

/-- A line without the line feed at its end. -/
def YamlLine.text (line : YamlLine) : List Char :=
  List.replicate line.indent ' ' ++ (if line.bullet then ['-', ' '] else []) ++ line.item.spelling

theorem YamlLine.spelling_eq (line : YamlLine) : line.spelling = line.text ++ ['\n'] :=
  rfl

theorem YamlLine.ofText_text {line : YamlLine} (h : line.Legible) : ofText line.text = line := by
  obtain ⟨indent, bullet, item⟩ := line
  obtain ⟨hitem, hkey⟩ := h
  have hread := YamlItem.ofText_spelling hitem
  have hspaces : ∀ c ∈ List.replicate indent ' ', decide (c = ' ') = true := by
    intro c hc
    simp [List.eq_of_mem_replicate hc]
  cases bullet with
  | true =>
      unfold ofText text
      simp only [if_true, List.append_assoc]
      rw [List.takeWhile_append_of_pos hspaces, List.dropWhile_append_of_pos hspaces]
      simp [hread]
  | false =>
      -- The key starts with a letter, so with neither a space nor a bullet.
      obtain ⟨c, rest, hc, hspelling⟩ : ∃ c rest, c.isAlpha = true ∧ item.spelling = c :: rest := by
        have hfirst : ∀ {key : String} (rest : List Char), IsYamlKey key →
            ∃ c later, c.isAlpha = true ∧ key.toList ++ rest = c :: later := by
          intro key rest hkey
          obtain ⟨c, later, hc⟩ := List.exists_cons_of_ne_nil hkey.1
          exact ⟨c, later ++ rest, List.all_eq_true.mp hkey.2 c (by simp [hc]), by rw [hc]; rfl⟩
        cases item with
        | heading key => exact hfirst _ hitem
        | field key value => exact hfirst _ hitem.1
        | item value => simp at hkey
      have hspace : c ≠ ' ' := by
        rintro rfl
        contradiction
      have hdash : c ≠ '-' := by
        rintro rfl
        contradiction
      rw [hspelling] at hread
      unfold ofText text
      simp only [List.append_nil, Bool.false_eq_true, if_false, hspelling]
      rw [List.takeWhile_append_of_pos hspaces, List.dropWhile_append_of_pos hspaces]
      simp [hspace, hdash, hread]

theorem YamlLine.lineFeed_notMem_text {line : YamlLine} (h : line.Legible) : '\n' ∉ line.text := by
  obtain ⟨indent, bullet, item⟩ := line
  have hspelling : '\n' ∉ item.spelling := by
    cases item with
    | heading key =>
        have := IsYamlKey.notMem h.1 (c := '\n') (by decide)
        simp [YamlItem.spelling, this]
    | field key value =>
        have := IsYamlKey.notMem h.1.1 (c := '\n') (by decide)
        simp [YamlItem.spelling, this, h.1.2]
    | item value => exact h.1.1
  cases bullet <;> simp [text, hspelling]

theorem YamlLine.splitOn_spelling {lines : List YamlLine} (h : ∀ line ∈ lines, line.Legible) :
    (lines.flatMap spelling).splitOn '\n' = lines.map text ++ [[]] := by
  induction lines with
  | nil => rfl
  | cons line lines ih =>
      rw [List.forall_mem_cons] at h
      rw [List.flatMap_cons, spelling_eq, List.append_assoc, List.singleton_append,
        List.splitOn_append_cons_self_of_not_mem (lineFeed_notMem_text h.1), ih h.2]
      rfl

theorem YamlLine.readAll_spelling {lines : List YamlLine} (h : ∀ line ∈ lines, line.Legible) :
    readAll (lines.flatMap spelling) = lines := by
  rw [readAll, splitOn_spelling h, List.dropLast_concat, List.map_map]
  exact (List.map_congr_left fun line hline => ofText_text (h line hline)).trans (List.map_id _)

/-! Blocks -/

/-- The lines before the first head, and from each head on the lines up to the next. -/
def blocks (isHead : YamlLine → Bool) : List YamlLine → List YamlLine × List (List YamlLine)
  | [] => ([], [])
  | line :: lines =>
      let (front, later) := blocks isHead lines
      if isHead line then ([], (line :: front) :: later) else (line :: front, later)

/-- A head and the lines below it. -/
def IsBlock (isHead : YamlLine → Bool) (block : List YamlLine) : Prop :=
  ∃ head tail, block = head :: tail ∧ isHead head = true ∧ ∀ line ∈ tail, isHead line = false

theorem blocks_append_of_no_head {isHead : YamlLine → Bool} {front : List YamlLine}
    (hfront : ∀ line ∈ front, isHead line = false) (rest : List YamlLine) :
    blocks isHead (front ++ rest) =
      (front ++ (blocks isHead rest).1, (blocks isHead rest).2) := by
  induction front with
  | nil => rfl
  | cons line front ih =>
      rw [List.forall_mem_cons] at hfront
      simp [blocks, hfront.1, ih hfront.2]

theorem blocks_block_append {isHead : YamlLine → Bool} {block : List YamlLine}
    (hblock : IsBlock isHead block) (rest : List YamlLine) :
    blocks isHead (block ++ rest) =
      ([], (block ++ (blocks isHead rest).1) :: (blocks isHead rest).2) := by
  obtain ⟨head, tail, rfl, hhead, htail⟩ := hblock
  simp [blocks, hhead, blocks_append_of_no_head htail]

theorem blocks_flatten {isHead : YamlLine → Bool} {parts : List (List YamlLine)}
    (hparts : ∀ part ∈ parts, IsBlock isHead part) :
    blocks isHead parts.flatten = ([], parts) := by
  induction parts with
  | nil => rfl
  | cons part parts ih =>
      rw [List.forall_mem_cons] at hparts
      rw [List.flatten_cons, blocks_block_append hparts.1, ih hparts.2]
      simp

/-- Lines that no head is among, and blocks behind them, are told apart again. -/
theorem blocks_append_flatMap {α : Type} {isHead : YamlLine → Bool} {front : List YamlLine}
    {items : List α} {lines : α → List YamlLine} (hfront : ∀ line ∈ front, isHead line = false)
    (hitems : ∀ item ∈ items, IsBlock isHead (lines item)) :
    blocks isHead (front ++ items.flatMap lines) = (front, items.map lines) := by
  have hparts : ∀ part ∈ items.map lines, IsBlock isHead part := by
    simpa using hitems
  rw [blocks_append_of_no_head hfront, List.flatMap_def, blocks_flatten hparts]
  simp

end DeclarationOutline
