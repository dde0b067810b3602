import Mathlib.Data.Nat.Digits.Defs
import Mathlib.Data.List.Induction
import Mathlib.Data.Option.Basic
import DeclarationOutline.Run

/-! The arguments a run can be asked for with. They are cut into tokens from the left: an option
with its value, or a flag. A list that is tokens throughout asks for a run; any other list is
decided where its tokens end. -/
namespace DeclarationOutline

/-! ## Spellings and values -/

def Flag.spellings : Flag → List String
  | takes .root => ["--root", "-d"]
  | takes .pattern => ["--r", "--glob", "-g"]
  | takes .file => ["--file"]
  | takes .kind => ["--group"]
  | takes .order => ["--sort"]
  | takes .format => ["--format"]
  | takes .timeout => ["--timeout"]
  | takes .exclusion => ["--exclude"]
  | bareExclusions => ["--no-defaults"]
  | verbose => ["--verbose", "-v"]
  | help => ["--help", "-h", "-?"]
  | version => ["--version", "-V"]

theorem Flag.ofText?_eq_some_iff {word : String} {flag : Flag} :
    ofText? word = some flag ↔ word ∈ flag.spellings := by
  constructor
  · intro h
    unfold ofText? at h
    split at h <;> cases h <;> simp [spellings]
  · intro h
    have hspelled : ∀ word ∈ flag.spellings, ofText? word = some flag := by
      cases flag with
      | takes option => cases option <;> decide
      | _ => decide
    exact hspelled word h

/-- No word spells two flags. -/
theorem Flag.eq_of_mem_spellings {word : String} {flag other : Flag}
    (h : word ∈ flag.spellings) (h' : word ∈ other.spellings) : flag = other := by
  rw [← ofText?_eq_some_iff] at h h'
  exact Option.some_inj.mp (h.symm.trans h')

/-- The text is decimal digits for `n`, at least one, behind an optional plus sign. -/
def IsDecimal (text : String) (n : Nat) : Prop :=
  ∃ digits : List Nat, digits ≠ [] ∧ (∀ digit ∈ digits, digit < 10) ∧
    (text.toList = digits.map Nat.digitChar ∨ text.toList = '+' :: digits.map Nat.digitChar) ∧
    n = Nat.ofDigits 10 digits.reverse

theorem exists_digits_of_isDigit {chars : List Char} (h : chars.all Char.isDigit = true) :
    ∃ digits : List Nat, (∀ digit ∈ digits, digit < 10) ∧ chars = digits.map Nat.digitChar := by
  have hdigit : ∀ c ∈ chars, c.toNat - 48 < 10 ∧ Nat.digitChar (c.toNat - 48) = c := by
    intro c hc
    have hrange : 48 ≤ c.toNat ∧ c.toNat ≤ 57 :=
      Char.isDigit_iff_toNat.mp (List.all_eq_true.mp h c hc)
    have hlt : c.toNat - 48 < 10 := by omega
    refine ⟨hlt, Char.toNat_inj.mp ?_⟩
    rw [Nat.toNat_digitChar_of_lt_ten hlt]
    omega
  refine ⟨chars.map fun c => c.toNat - 48, ?_, ?_⟩
  · simpa using fun c hc => (hdigit c hc).1
  · rw [List.map_map]
    exact (List.map_id' _).symm.trans (List.map_congr_left fun c hc => (hdigit c hc).2.symm)

theorem foldl_digitChar {digits : List Nat} (h : ∀ digit ∈ digits, digit < 10) :
    (digits.map Nat.digitChar).foldl (fun n c => n * 10 + (c.toNat - '0'.toNat)) 0 =
      Nat.ofDigits 10 digits.reverse := by
  induction digits using List.reverseRecOn with
  | nil => rfl
  | append_singleton digits digit ih =>
      have hdigit : digit.digitChar.toNat - '0'.toNat = digit :=
        Nat.toNat_digitChar_sub_48_of_lt_ten (h digit (by simp))
      simp only [List.map_append, List.map_cons, List.map_nil, List.foldl_append, List.foldl_cons,
        List.foldl_nil, List.reverse_append, List.reverse_cons, List.reverse_nil, List.nil_append,
        List.singleton_append, Nat.ofDigits_cons, hdigit]
      rw [ih fun d hd => h d (by simp [hd])]
      exact (Nat.add_comm _ _).trans (congrArg _ (Nat.mul_comm _ _))

/-- Digits without a sign are read as their number. -/
theorem unsigned_eq_some_iff {chars : List Char} {n : Nat} :
    (if chars.isEmpty || !chars.all Char.isDigit then none
      else some (chars.foldl (fun n c => n * 10 + (c.toNat - '0'.toNat)) 0)) = some n ↔
      ∃ digits : List Nat, digits ≠ [] ∧ (∀ digit ∈ digits, digit < 10) ∧
        chars = digits.map Nat.digitChar ∧ n = Nat.ofDigits 10 digits.reverse := by
  constructor
  · intro h
    split at h
    · contradiction
    next hdigits =>
      rw [Bool.not_eq_true, Bool.or_eq_false_iff, Bool.not_eq_eq_eq_not, Bool.not_false,
        List.isEmpty_eq_false_iff] at hdigits
      obtain ⟨digits, hlt, rfl⟩ := exists_digits_of_isDigit hdigits.2
      refine ⟨digits, by simpa using hdigits.1, hlt, rfl, ?_⟩
      rw [← foldl_digitChar hlt]
      exact (Option.some_inj.mp h).symm
  · rintro ⟨digits, hne, hlt, rfl, rfl⟩
    have hall : (digits.map Nat.digitChar).all Char.isDigit = true := by
      simpa [Nat.isDigit_digitChar] using hlt
    rw [if_neg (by simp [hall, hne]), foldl_digitChar hlt]

theorem decimal?_eq_some_iff {text : String} {n : Nat} :
    decimal? text = some n ↔ IsDecimal text n := by
  -- No digit is a plus sign, so the two ways to write a number exclude each other.
  have hsign : ∀ digits : List Nat, (∀ digit ∈ digits, digit < 10) → ∀ rest,
      digits.map Nat.digitChar ≠ '+' :: rest := by
    intro digits hlt rest heq
    obtain ⟨digit, more, rfl, hplus, -⟩ := List.map_eq_cons_iff.mp heq
    have hdigit : digit.digitChar.isDigit = true := by
      simpa [Nat.isDigit_digitChar] using hlt digit (by simp)
    rw [hplus] at hdigit
    contradiction
  unfold decimal? IsDecimal
  simp only [unsigned_eq_some_iff]
  split
  next rest hsigned =>
    rw [hsigned]
    refine exists_congr fun digits => and_congr_right fun _ => and_congr_right fun hlt => ?_
    have hbare : '+' :: rest ≠ digits.map Nat.digitChar := (hsign digits hlt rest).symm
    simp [hbare]
  next hunsigned =>
    refine exists_congr fun digits => and_congr_right fun _ => and_congr_right fun hlt => ?_
    have hplus : text.toList ≠ '+' :: digits.map Nat.digitChar := hunsigned _
    simp [hplus]

theorem IsDecimal.rel_unique {text : Option String} {n m : Option Nat}
    (h : Option.Rel IsDecimal text n) (h' : Option.Rel IsDecimal text m) : n = m := by
  cases h with
  | none => cases h'; rfl
  | some hn =>
      cases h' with
      | some hm => rw [← decimal?_eq_some_iff.mpr hn, decimal?_eq_some_iff.mpr hm]

theorem timeout?_eq_some_iff {text : String} {n : Nat} :
    timeout? text = some n ↔ IsDecimal text n ∧ n < 2 ^ 64 := by
  rw [timeout?, Option.filter_eq_some_iff, decimal?_eq_some_iff, decide_eq_true_iff]
  rfl

/-- The values an option can be given. -/
def ValueOption.Admits (value : String) : ValueOption → Prop
  | kind => value = "testcase" ∨ value = "function"
  | order => value = "position" ∨ value = "alphabetical"
  | format => value = "yaml" ∨ value = "json"
  | timeout => ∃ n, IsDecimal value n ∧ n < 2 ^ 64
  | root | pattern | file | exclusion => True

/-- How an option that does not admit every value complains about one. -/
def ValueOption.complaint? : ValueOption → Option (String → UsageError)
  | kind => some .unknownKind
  | order => some .unknownOrder
  | format => some .unknownFormat
  | timeout => some .badTimeout
  | root | pattern | file | exclusion => none

/-! ## Tokens -/

/-- An option with its value, or a flag, as it is written. -/
inductive Token where
  | setting (option : ValueOption) (spelling value : String)
      (spelled : spelling ∈ (Flag.takes option).spellings) (admitted : option.Admits value)
  | bareExclusions (spelling : String) (spelled : spelling ∈ Flag.bareExclusions.spellings)
  | verbose (spelling : String) (spelled : spelling ∈ Flag.verbose.spellings)

namespace Token

def words : Token → List String
  | setting _ spelling value _ _ => [spelling, value]
  | bareExclusions spelling _ => [spelling]
  | verbose spelling _ => [spelling]

def flag : Token → Flag
  | setting option _ _ _ _ => .takes option
  | bareExclusions _ _ => .bareExclusions
  | verbose _ _ => .verbose

/-- The value that the token gives an option. -/
def value? (option : ValueOption) : Token → Option String
  | setting given _ value _ _ => if given = option then some value else none
  | bareExclusions _ _ | verbose _ _ => none

/-- Tokens one behind the other. -/
def spell (tokens : List Token) : List String :=
  tokens.flatMap words

/-- The values that tokens give an option, from left to right. -/
def valuesOf (option : ValueOption) (tokens : List Token) : List String :=
  tokens.filterMap (value? option)

/-- Both files and patterns are given. -/
def Conflict (tokens : List Token) : Prop :=
  (∃ token ∈ tokens, token.flag = .takes .file) ∧ ∃ token ∈ tokens, token.flag = .takes .pattern

/-- No token stands in front. -/
def Absent (arguments : List String) : Prop :=
  ∀ (token : Token) (rest : List String), arguments ≠ token.words ++ rest

@[simp] theorem spell_cons (token : Token) (tokens : List Token) :
    spell (token :: tokens) = token.words ++ spell tokens :=
  List.flatMap_cons

theorem value?_eq_none_iff {option : ValueOption} {token : Token} :
    token.value? option = none ↔ token.flag ≠ .takes option := by
  cases token <;> simp [value?, flag]

theorem valuesOf_ne_nil_iff {option : ValueOption} {tokens : List Token} :
    valuesOf option tokens ≠ [] ↔ ∃ token ∈ tokens, token.flag = .takes option := by
  simp [valuesOf, value?_eq_none_iff]

/-- What an option is given depends on its own tokens only. -/
theorem valuesOf_filter (option : ValueOption) (tokens : List Token) :
    valuesOf option (tokens.filter (·.flag = .takes option)) = valuesOf option tokens := by
  unfold valuesOf
  rw [List.filterMap_filter]
  congr 1
  funext token
  split
  · rfl
  next hother => exact (value?_eq_none_iff.mpr (by simpa using hother)).symm

theorem words_eq_cons (token : Token) :
    ∃ spelling ∈ token.flag.spellings, ∃ values, token.words = spelling :: values := by
  cases token with
  | setting option spelling value spelled _ => exact ⟨spelling, spelled, [value], rfl⟩
  | bareExclusions spelling spelled => exact ⟨spelling, spelled, [], rfl⟩
  | verbose spelling spelled => exact ⟨spelling, spelled, [], rfl⟩

/-- Arguments start with one token at most. -/
theorem words_append_inj {token other : Token} {rest more : List String}
    (h : token.words ++ rest = other.words ++ more) : token = other ∧ rest = more := by
  have hflag : token.flag = other.flag := by
    obtain ⟨spelling, hspelling, values, hwords⟩ := token.words_eq_cons
    obtain ⟨spelling', hspelling', values', hwords'⟩ := other.words_eq_cons
    rw [hwords, hwords', List.cons_append, List.cons_append, List.cons.injEq] at h
    exact Flag.eq_of_mem_spellings hspelling (h.1 ▸ hspelling')
  cases token <;> cases other <;> simp_all [words, flag]

theorem exists_cut (arguments : List String) :
    ∃ tokens rest, arguments = spell tokens ++ rest ∧ Absent rest := by
  by_cases habsent : Absent arguments
  · exact ⟨[], arguments, rfl, habsent⟩
  · simp only [Absent, ne_eq, not_forall, not_not] at habsent
    obtain ⟨token, rest, hfront⟩ := habsent
    have hshorter : rest.length < arguments.length := by
      obtain ⟨_, -, _, hwords⟩ := token.words_eq_cons
      simp only [hfront, hwords, List.length_append, List.length_cons]
      omega
    obtain ⟨tokens, last, hrest, habsent⟩ := exists_cut rest
    exact ⟨token :: tokens, last, by rw [hfront, hrest, spell_cons, List.append_assoc], habsent⟩
termination_by arguments.length

theorem cut_unique {tokens others : List Token} {rest more : List String} (habsent : Absent rest)
    (habsent' : Absent more) (h : spell tokens ++ rest = spell others ++ more) :
    tokens = others ∧ rest = more := by
  induction tokens generalizing others with
  | nil =>
      cases others with
      | nil => exact ⟨rfl, h⟩
      | cons other others =>
          rw [spell_cons, List.append_assoc] at h
          exact absurd h (habsent other _)
  | cons token tokens ih =>
      rw [spell_cons, List.append_assoc] at h
      cases others with
      | nil => exact absurd h.symm (habsent' token _)
      | cons other others =>
          rw [spell_cons, List.append_assoc] at h
          obtain ⟨rfl, hrest⟩ := words_append_inj h
          obtain ⟨rfl, rfl⟩ := ih hrest
          exact ⟨rfl, rfl⟩

/-- Arguments are cut from the left into tokens and a rest in one way. -/
theorem existsUnique_cut (arguments : List String) :
    ∃! cut : List Token × List String, arguments = spell cut.1 ++ cut.2 ∧ Absent cut.2 := by
  obtain ⟨tokens, rest, rfl, habsent⟩ := exists_cut arguments
  refine ⟨(tokens, rest), ⟨rfl, habsent⟩, ?_⟩
  rintro ⟨tokens', rest'⟩ ⟨hcut, habsent'⟩
  obtain ⟨rfl, rfl⟩ := cut_unique habsent habsent' hcut
  rfl

@[simp] theorem valuesOf_concat (option : ValueOption) (tokens : List Token) (token : Token) :
    valuesOf option (tokens ++ [token]) =
      valuesOf option tokens ++ (token.value? option).toList := by
  cases h : token.value? option <;> simp [valuesOf, h]

end Token

open Token

/-! ## What tokens ask for -/

def ReportFormat.name : ReportFormat → String
  | yaml => "yaml"
  | json => "json"

/-- The options are what the tokens say: all values of an option that gathers them, the last value
of any other, and the default where there is none. -/
structure Options.Records (options : Options) (tokens : List Token) : Prop where
  root : options.root = (valuesOf .root tokens).getLast?
  patterns : options.patterns = valuesOf .pattern tokens
  files : options.files = valuesOf .file tokens
  kinds : options.kinds.map Kind.name = (valuesOf .kind tokens).eraseDups
  order : options.order.map ViewOrder.name = (valuesOf .order tokens).getLast?
  format : options.format.name = (valuesOf .format tokens).getLast?.getD "yaml"
  timeout : Option.Rel IsDecimal (valuesOf .timeout tokens).getLast? options.timeout
  exclusions : options.exclusions = valuesOf .exclusion tokens
  bareExclusions : options.bareExclusions = true ↔ ∃ token ∈ tokens, token.flag = .bareExclusions
  verbose : options.verbose = true ↔ ∃ token ∈ tokens, token.flag = .verbose

theorem Kind.name_injective : Function.Injective Kind.name := by
  intro kind other h
  exact Except.ok.inj (by rw [← ofName_name kind, h, ofName_name])

theorem ViewOrder.name_injective : Function.Injective ViewOrder.name := by
  intro order other h
  exact Except.ok.inj (by rw [← ofName_name order, h, ofName_name])

theorem ReportFormat.name_injective : Function.Injective ReportFormat.name := by
  intro format other h
  cases format <;> cases other <;> first | rfl | contradiction

attribute [ext] Options

namespace Options.Records

variable {options other : Options} {tokens others : List Token}

theorem initial : Options.initial.Records [] where
  root := rfl
  patterns := rfl
  files := rfl
  kinds := rfl
  order := rfl
  format := rfl
  timeout := .none
  exclusions := rfl
  bareExclusions := by simp [Options.initial]
  verbose := by simp [Options.initial]

theorem eraseDups_concat (values : List String) (value : String) :
    (values ++ [value]).eraseDups =
      if value ∈ values then values.eraseDups else values.eraseDups ++ [value] := by
  rw [List.eraseDups_append]
  split <;> simp_all [List.removeAll, List.eraseDups_cons]

theorem kind_mem_iff (h : options.Records tokens) (kind : Kind) :
    kind ∈ options.kinds ↔ kind.name ∈ valuesOf .kind tokens := by
  have hmem : kind.name ∈ options.kinds.map Kind.name ↔ kind ∈ options.kinds := by
    rw [List.mem_map]
    exact ⟨fun ⟨_, hkind, hname⟩ => Kind.name_injective hname ▸ hkind,
      fun hkind => ⟨kind, hkind, rfl⟩⟩
  rw [← hmem, h.kinds, List.mem_eraseDups]

/-- An admitted value is taken, and the options then say it too. -/
theorem set (h : options.Records tokens) {option : ValueOption} {spelling value : String}
    (spelled : spelling ∈ (Flag.takes option).spellings) (admitted : option.Admits value) :
    ∃ next, options.set value option = .ok next ∧
      next.Records (tokens ++ [.setting option spelling value spelled admitted]) := by
  cases option with
  | root | pattern | file | exclusion =>
      refine ⟨_, rfl, ?_⟩
      constructor <;> simp [value?, flag, h.root, h.patterns, h.files, h.kinds, h.order, h.format,
        h.timeout, h.exclusions, h.bareExclusions, h.verbose]
  | kind =>
      obtain ⟨kind, rfl⟩ : ∃ kind : Kind, value = kind.name := by
        rcases admitted with rfl | rfl
        exacts [⟨.testcase, rfl⟩, ⟨.function, rfl⟩]
      have hkinds :
          (if kind ∈ options.kinds then options.kinds else options.kinds ++ [kind]).map Kind.name =
            (valuesOf .kind tokens ++ [kind.name]).eraseDups := by
        simp only [eraseDups_concat, h.kind_mem_iff, ← h.kinds]
        split <;> simp
      simp only [Options.set, Kind.ofName_name]
      refine ⟨_, rfl, ?_⟩
      constructor <;> simp [value?, flag, h.root, h.patterns, h.files, hkinds, h.order, h.format,
        h.timeout, h.exclusions, h.bareExclusions, h.verbose]
  | order =>
      obtain ⟨order, rfl⟩ : ∃ order : ViewOrder, value = order.name := by
        rcases admitted with rfl | rfl
        exacts [⟨.position, rfl⟩, ⟨.alphabetical, rfl⟩]
      simp only [Options.set, ViewOrder.ofName_name]
      refine ⟨_, rfl, ?_⟩
      constructor <;> simp [value?, flag, h.root, h.patterns, h.files, h.kinds, h.format,
        h.timeout, h.exclusions, h.bareExclusions, h.verbose]
  | format =>
      obtain ⟨format, rfl⟩ : ∃ format : ReportFormat, value = format.name := by
        rcases admitted with rfl | rfl
        exacts [⟨.yaml, rfl⟩, ⟨.json, rfl⟩]
      have hset : options.set format.name .format = .ok { options with format } := by
        cases format <;> rfl
      refine ⟨_, hset, ?_⟩
      constructor <;> simp [value?, flag, h.root, h.patterns, h.files, h.kinds, h.order,
        h.timeout, h.exclusions, h.bareExclusions, h.verbose]
  | timeout =>
      obtain ⟨seconds, hseconds⟩ := admitted
      simp only [Options.set, timeout?_eq_some_iff.mpr hseconds]
      refine ⟨_, rfl, ?_⟩
      constructor <;> simp [value?, flag, h.root, h.patterns, h.files, h.kinds, h.order, h.format,
        hseconds.1, h.exclusions, h.bareExclusions, h.verbose]

/-- Options read a token as one more thing said. -/
theorem read_words (h : options.Records tokens) (token : Token) :
    ∃ next : Options, next.Records (tokens ++ [token]) ∧
      ∀ rest, options.read (token.words ++ rest) = next.read rest := by
  cases token with
  | setting option spelling value spelled admitted =>
      obtain ⟨next, hset, hnext⟩ := h.set spelled admitted
      refine ⟨next, hnext, fun rest => ?_⟩
      simp only [words, List.cons_append, List.nil_append, Options.read,
        Flag.ofText?_eq_some_iff.mpr spelled, hset]
  | bareExclusions spelling spelled =>
      refine ⟨{ options with bareExclusions := true }, ?_, fun rest => ?_⟩
      · constructor <;> simp [value?, flag, h.root, h.patterns, h.files, h.kinds, h.order,
          h.format, h.timeout, h.exclusions, h.verbose]
      · simp only [words, List.cons_append, List.nil_append, Options.read,
          Flag.ofText?_eq_some_iff.mpr spelled]
  | verbose spelling spelled =>
      refine ⟨{ options with verbose := true }, ?_, fun rest => ?_⟩
      · constructor <;> simp [value?, flag, h.root, h.patterns, h.files, h.kinds, h.order,
          h.format, h.timeout, h.exclusions, h.bareExclusions]
      · simp only [words, List.cons_append, List.nil_append, Options.read,
          Flag.ofText?_eq_some_iff.mpr spelled]

/-- Tokens are read one after the other, whatever follows them. -/
theorem read_spell (h : options.Records tokens) (others : List Token) :
    ∃ next : Options, next.Records (tokens ++ others) ∧
      ∀ rest, options.read (spell others ++ rest) = next.read rest := by
  induction others generalizing options tokens with
  | nil => exact ⟨options, by simpa using h, fun rest => rfl⟩
  | cons token others ih =>
      obtain ⟨first, hfirst, hread⟩ := h.read_words token
      obtain ⟨next, hnext, hreads⟩ := ih hfirst
      refine ⟨next, by simpa using hnext, fun rest => ?_⟩
      rw [spell_cons, List.append_assoc, hread, hreads]


/-- What tokens say is the same whatever their order, as long as each flag keeps its own tokens in
order. -/
theorem eq_of_filter_eq (h : options.Records tokens) (h' : other.Records others)
    (hsame : ∀ flag, tokens.filter (·.flag = flag) = others.filter (·.flag = flag)) :
    options = other := by
  -- Every field depends on the tokens of one flag.
  have hvalues : ∀ option, valuesOf option tokens = valuesOf option others := by
    intro option
    rw [← valuesOf_filter, hsame, valuesOf_filter]
  have hflag : ∀ flag,
      (∃ token ∈ tokens, token.flag = flag) ↔ ∃ token ∈ others, token.flag = flag := by
    intro flag
    have hempty : ∀ tokens : List Token,
        (∃ token ∈ tokens, token.flag = flag) ↔ tokens.filter (·.flag = flag) ≠ [] := by
      simp
    rw [hempty, hsame, ← hempty]
  apply Options.ext
  case root => rw [h.root, h'.root, hvalues]
  case patterns => rw [h.patterns, h'.patterns, hvalues]
  case files => rw [h.files, h'.files, hvalues]
  case kinds =>
    apply (List.map_inj_right fun {_ _} hname => Kind.name_injective hname).mp
    rw [h.kinds, h'.kinds, hvalues]
  case order =>
    apply Option.map_injective ViewOrder.name_injective
    rw [h.order, h'.order, hvalues]
  case format =>
    apply ReportFormat.name_injective
    rw [h.format, h'.format, hvalues]
  case timeout =>
    have hlast := h.timeout
    rw [hvalues] at hlast
    exact IsDecimal.rel_unique hlast h'.timeout
  case exclusions => rw [h.exclusions, h'.exclusions, hvalues]
  case bareExclusions => rw [Bool.eq_iff_iff, h.bareExclusions, h'.bareExclusions, hflag]
  case verbose => rw [Bool.eq_iff_iff, h.verbose, h'.verbose, hflag]

theorem finish_eq (h : options.Records tokens) :
    (Conflict tokens → options.finish = .error .filesAndPatterns) ∧
      (¬ Conflict tokens → options.finish = .ok (.run options)) := by
  have hconflict :
      Conflict tokens ↔ (!options.files.isEmpty && !options.patterns.isEmpty) = true := by
    rw [Conflict, ← valuesOf_ne_nil_iff, ← valuesOf_ne_nil_iff, ← h.files, ← h.patterns]
    simp
  rw [hconflict]
  exact ⟨fun hboth => if_pos hboth, fun hclear => if_neg hclear⟩

theorem groups_eq (h : options.Records tokens) :
    options.groups = Kind.all.filter fun kind =>
      valuesOf .kind tokens = [] ∨ kind.name ∈ valuesOf .kind tokens := by
  have hnone : options.kinds.isEmpty = decide (valuesOf .kind tokens = []) := by
    rw [Bool.eq_iff_iff, List.isEmpty_iff, decide_eq_true_iff, ← List.map_eq_nil_iff, h.kinds]
    cases valuesOf .kind tokens <;> simp [List.eraseDups_cons]
  simp [Options.groups, hnone, h.kind_mem_iff]

end Options.Records

theorem Options.groups_ne_nil (options : Options) : options.groups ≠ [] := by
  cases hkinds : options.kinds with
  | nil => simp [groups, hkinds, Kind.all]
  | cons kind kinds =>
      have hmem : kind ∈ options.groups := List.mem_filter.mpr ⟨kind.mem_all, by simp [hkinds]⟩
      exact List.ne_nil_of_mem hmem

/-! ## Where tokens end -/

/-- What arguments come to if no token stands in front. -/
inductive Decides : List String → Except UsageError Action → Prop where
  | help {word rest} (h : word ∈ Flag.help.spellings) : Decides (word :: rest) (.ok .help)
  | version {word rest} (h : word ∈ Flag.version.spellings) : Decides (word :: rest) (.ok .version)
  | missing {word option} (h : word ∈ (Flag.takes option).spellings) :
      Decides [word] (.error (.missingValue (option.reportedAs word)))
  | refused {word value rest option complaint} (h : word ∈ (Flag.takes option).spellings)
      (hvalue : ¬ option.Admits value) (hcomplaint : option.complaint? = some complaint) :
      Decides (word :: value :: rest) (.error (complaint value))
  | unknown {word rest} (h : ∀ flag : Flag, word ∉ flag.spellings) :
      Decides (word :: rest) (.error (.unknownOption word))

theorem Options.set_of_refused (options : Options) {option : ValueOption} {value : String}
    {complaint : String → UsageError} (hvalue : ¬ option.Admits value)
    (hcomplaint : option.complaint? = some complaint) :
    options.set value option = .error (complaint value) := by
  cases option <;> cases hcomplaint
  case kind =>
    obtain ⟨htestcase, hfunction⟩ := not_or.mp hvalue
    simp [set, Kind.ofName, htestcase, hfunction]
  case order =>
    obtain ⟨hposition, halphabetical⟩ := not_or.mp hvalue
    simp [set, ViewOrder.ofName, hposition, halphabetical]
  case format =>
    simp only [set]
    split
    · exact absurd (.inl rfl) hvalue
    · exact absurd (.inr rfl) hvalue
    · rfl
  case timeout =>
    have hnone : timeout? value = none := by
      rw [Option.eq_none_iff_forall_ne_some]
      exact fun n hn => hvalue ⟨n, timeout?_eq_some_iff.mp hn⟩
    simp [set, hnone]

theorem Decides.read_eq {rest : List String} {outcome : Except UsageError Action}
    (h : Decides rest outcome) (options : Options) : options.read rest = outcome := by
  cases h with
  | help h | version h | missing h =>
      simp only [Options.read, Flag.ofText?_eq_some_iff.mpr h]
  | refused h hvalue hcomplaint =>
      simp only [Options.read, Flag.ofText?_eq_some_iff.mpr h,
        options.set_of_refused hvalue hcomplaint]
  | @unknown word rest h =>
      have hnone : Flag.ofText? word = none := by
        rw [Option.eq_none_iff_forall_ne_some]
        exact fun flag hflag => h flag (Flag.ofText?_eq_some_iff.mp hflag)
      simp only [Options.read, hnone]

theorem Token.Absent.exists_decides {word : String} {rest : List String}
    (h : Absent (word :: rest)) : ∃ outcome, Decides (word :: rest) outcome := by
  by_cases hflag : ∃ flag : Flag, word ∈ flag.spellings
  · obtain ⟨flag, hword⟩ := hflag
    cases flag with
    | takes option =>
        cases rest with
        | nil => exact ⟨_, .missing hword⟩
        | cons value rest =>
            by_cases hvalue : option.Admits value
            · exact absurd rfl (h (.setting option word value hword hvalue) rest)
            · obtain ⟨complaint, hcomplaint⟩ : ∃ complaint, option.complaint? = some complaint := by
                cases option <;> first | exact ⟨_, rfl⟩ | exact absurd trivial hvalue
              exact ⟨_, .refused hword hvalue hcomplaint⟩
    | bareExclusions => exact absurd rfl (h (.bareExclusions word hword) rest)
    | verbose => exact absurd rfl (h (.verbose word hword) rest)
    | help => exact ⟨_, .help hword⟩
    | version => exact ⟨_, .version hword⟩
  · exact ⟨_, .unknown (not_exists.mp hflag)⟩

/-! ## Command lines -/

theorem Action.ofArguments_spell (tokens : List Token) :
    ∃ options : Options, options.Records tokens ∧
      ∀ rest, ofArguments (spell tokens ++ rest) = options.read rest :=
  Options.Records.initial.read_spell tokens

theorem Action.ofArguments_of_conflict {tokens : List Token} (h : Conflict tokens) :
    ofArguments (spell tokens) = .error .filesAndPatterns := by
  obtain ⟨options, hrecords, hread⟩ := ofArguments_spell tokens
  have hfinish : ofArguments (spell tokens) = options.finish := by
    simpa [Options.read] using hread []
  rw [hfinish, hrecords.finish_eq.1 h]

theorem Action.ofArguments_of_not_conflict {tokens : List Token} (h : ¬ Conflict tokens) :
    ∃ options : Options, options.Records tokens ∧
      ofArguments (spell tokens) = .ok (.run options) := by
  obtain ⟨options, hrecords, hread⟩ := ofArguments_spell tokens
  have hfinish : ofArguments (spell tokens) = options.finish := by
    simpa [Options.read] using hread []
  exact ⟨options, hrecords, by rw [hfinish, hrecords.finish_eq.2 h]⟩

theorem Action.ofArguments_of_decides {rest : List String} {outcome : Except UsageError Action}
    (h : Decides rest outcome) (tokens : List Token) :
    ofArguments (spell tokens ++ rest) = outcome := by
  obtain ⟨options, -, hread⟩ := ofArguments_spell tokens
  rw [hread, h.read_eq]

/-- A run is asked for by tokens alone. -/
theorem Action.exists_tokens_of_run {arguments : List String} {options : Options}
    (h : ofArguments arguments = .ok (.run options)) :
    ∃ tokens, arguments = spell tokens ∧ ¬ Conflict tokens := by
  obtain ⟨tokens, rest, rfl, habsent⟩ := exists_cut arguments
  cases rest with
  | nil =>
      rw [List.append_nil] at h ⊢
      refine ⟨tokens, rfl, fun hconflict => ?_⟩
      rw [ofArguments_of_conflict hconflict] at h
      contradiction
  | cons word rest =>
      -- Where tokens end before the arguments do, nothing asks for a run.
      obtain ⟨outcome, hdecides⟩ := habsent.exists_decides
      rw [ofArguments_of_decides hdecides] at h
      cases hdecides <;> cases h

/-- Arguments are cut into tokens from the left in one way. They ask for a run if nothing else is
left and files do not meet patterns; the run is then what the tokens say, in whatever order
different flags come. Otherwise that meeting, or else the first place without a token, decides. -/
theorem arguments_read_exactly :
    (∀ arguments, ∃! cut : List Token × List String,
      arguments = spell cut.1 ++ cut.2 ∧ Absent cut.2) ∧
    (∀ arguments, (∃ options, Action.ofArguments arguments = .ok (.run options)) ↔
      ∃ tokens, arguments = spell tokens ∧ ¬ Conflict tokens) ∧
    (∀ tokens options, Action.ofArguments (spell tokens) = .ok (.run options) →
      options.Records tokens ∧
      options.groups = (Kind.all.filter fun kind =>
        valuesOf .kind tokens = [] ∨ kind.name ∈ valuesOf .kind tokens) ∧
      options.groups ≠ [] ∧
      ∀ surroundings, options.rootPath surroundings =
        ⟨(valuesOf .root tokens).getLast?.getD surroundings.directory⟩) ∧
    (∀ tokens others : List Token,
      (∀ flag, tokens.filter (·.flag = flag) = others.filter (·.flag = flag)) →
      ∀ rest, Action.ofArguments (spell tokens ++ rest) =
        Action.ofArguments (spell others ++ rest)) ∧
    (∀ tokens, Conflict tokens →
      Action.ofArguments (spell tokens) = .error .filesAndPatterns) ∧
    (∀ tokens rest outcome, rest ≠ [] → Absent rest →
      (Action.ofArguments (spell tokens ++ rest) = outcome ↔ Decides rest outcome)) := by
  refine ⟨existsUnique_cut, ?_, ?_, ?_, fun _ => Action.ofArguments_of_conflict, ?_⟩
  · intro arguments
    constructor
    · rintro ⟨options, hrun⟩
      exact Action.exists_tokens_of_run hrun
    · rintro ⟨tokens, rfl, hclear⟩
      obtain ⟨options, -, hrun⟩ := Action.ofArguments_of_not_conflict hclear
      exact ⟨options, hrun⟩
  · intro tokens options hrun
    have hclear : ¬ Conflict tokens := by
      intro hconflict
      rw [Action.ofArguments_of_conflict hconflict] at hrun
      contradiction
    obtain ⟨recorded, hrecords, hrecorded⟩ := Action.ofArguments_of_not_conflict hclear
    obtain rfl : recorded = options := by simpa [hrecorded] using hrun
    refine ⟨hrecords, hrecords.groups_eq, recorded.groups_ne_nil, fun surroundings => ?_⟩
    rw [Options.rootPath, hrecords.root]
  · intro tokens others hsame rest
    obtain ⟨options, hrecords, hread⟩ := Action.ofArguments_spell tokens
    obtain ⟨other, hrecords', hread'⟩ := Action.ofArguments_spell others
    rw [hread, hread', hrecords.eq_of_filter_eq hrecords' hsame]
  · intro tokens rest outcome hne habsent
    constructor
    · rintro rfl
      obtain ⟨word, rest, rfl⟩ := List.exists_cons_of_ne_nil hne
      obtain ⟨outcome, hdecides⟩ := habsent.exists_decides
      rwa [Action.ofArguments_of_decides hdecides]
    · exact fun hdecides => Action.ofArguments_of_decides hdecides tokens

end DeclarationOutline
