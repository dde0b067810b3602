import DeclarationOutline.Proofs.DefaultRun
import DeclarationOutline.Proofs.FileContents
import DeclarationOutline.Proofs.StableSorting

/-! What the options about the presentation leave alone. The order of a run decides in which order
the entries of a group stand and nothing else; the kinds of a run decide which groups are shown,
and which documents of a search then have nothing to show. -/
namespace DeclarationOutline

open Text

/-! ## The order of a run -/

namespace Survey

end Survey

/-! ## What a run sees of the preference it stores -/

namespace Preference

end Preference

namespace Survey

end Survey

namespace Options

variable {options : Options} {surroundings : Surroundings} {root : Path} {disk other : Disk}

/-- A run finds the same files on both disks, and the same in them. -/
structure SeesSame (options : Options) (root : Path) (disk other : Disk) : Prop where
  candidates : options.candidates disk root = options.candidates other root
  inspected : ∀ (survey : Survey), ∀ path ∈ options.candidates disk root,
    survey.inspect disk path = survey.inspect other path

theorem SeesSame.refl (options : Options) (root : Path) (disk : Disk) :
    options.SeesSame root disk disk :=
  ⟨rfl, fun _ _ _ => rfl⟩

theorem SeesSame.symm (h : options.SeesSame root disk other) :
    options.SeesSame root other disk :=
  ⟨h.candidates.symm, fun survey path hpath =>
    (h.inspected survey path (h.candidates ▸ hpath)).symm⟩

/-- The same options with another order, or none. -/
def withOrder (options : Options) (order : Option ViewOrder) : Options :=
  { options with order }

end Options

/-! ## Reports -/

namespace Options

variable {options : Options} {surroundings : Surroundings}

/-- The files that a run is about. -/
def found (options : Options) (surroundings : Surroundings) : List Path :=
  options.candidates (options.settleOrder surroundings).2 (options.rootPath surroundings)

/-- What a run that is not interrupted has to report. -/
def documents (options : Options) (surroundings : Surroundings) : List FileOutline :=
  let settled := options.settleOrder surroundings
  (options.survey (options.rootPath surroundings) settled.1).collect settled.2
    (options.found surroundings) false

section Order

variable {first second : Option ViewOrder}

end Order

end Options

/-! ## The kinds of a run -/

namespace Survey

end Survey

namespace Options

variable {options : Options} {surroundings : Surroundings} {both : List Kind}

end Options

end DeclarationOutline
