import DeclarationOutline.Report.Basic

/-! What a report prints, in either format: everything but the raw parameters and the
full path of an entry. Lines and columns count from one. -/
namespace DeclarationOutline

inductive PrintedDetail where
  | function (returnType : String) (parameterTypes : List String)
  | testcase (exported : Bool)
  deriving DecidableEq, Repr

structure PrintedEntry where
  name : String
  label : String
  tooltip : String
  line : Nat
  column : Nat
  length : Nat
  detail : PrintedDetail
  deriving DecidableEq, Repr

structure PrintedGroup where
  kind : Kind
  entries : List PrintedEntry
  deriving DecidableEq, Repr

structure PrintedFile where
  path : String
  error : Option String
  groups : List PrintedGroup
  deriving DecidableEq, Repr

structure PrintedReport where
  summary : Option Summary
  error : Option String
  documents : Option (List PrintedFile)
  deriving DecidableEq, Repr

def Detail.printed : Detail → PrintedDetail
  | .function returnType _ types => .function returnType types
  | .testcase exported => .testcase exported

def Entry.printed (entry : Entry) : PrintedEntry where
  name := entry.name
  label := entry.label
  tooltip := entry.tooltip
  line := entry.location.line + 1
  column := entry.location.column + 1
  length := entry.location.endColumn - entry.location.column
  detail := entry.detail.printed

def Section.printed (group : Section) : PrintedGroup :=
  ⟨group.kind, group.entries.map Entry.printed⟩

def FileOutline.printed (outline : FileOutline) : PrintedFile :=
  ⟨outline.path, outline.error, outline.groups.map Section.printed⟩

def Report.printed (report : Report) : PrintedReport :=
  ⟨report.summary, report.error, report.documents.map (·.map FileOutline.printed)⟩

/-- The kind whose group a report calls by a key. -/
def Kind.ofReportKey? (key : String) : Option Kind :=
  Kind.all.find? (·.reportKey = key)

@[simp] theorem Kind.ofReportKey?_reportKey (kind : Kind) :
    Kind.ofReportKey? kind.reportKey = some kind := by
  cases kind <;> rfl

theorem Kind.reportKey_ne_path (kind : Kind) : kind.reportKey ≠ "path" := by
  cases kind <;> decide

theorem Kind.reportKey_ne_error (kind : Kind) : kind.reportKey ≠ "error" := by
  cases kind <;> decide

theorem mapM_map_eq_some {α β γ : Type} {read : β → Option γ} {write : α → β} {meaning : α → γ}
    {items : List α} (h : ∀ item ∈ items, read (write item) = some (meaning item)) :
    (items.map write).mapM read = some (items.map meaning) := by
  induction items with
  | nil => rfl
  | cons item items ih =>
      rw [List.forall_mem_cons] at h
      simp [List.mapM_cons, h.1, ih h.2]

end DeclarationOutline
