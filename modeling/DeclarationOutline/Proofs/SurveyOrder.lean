import DeclarationOutline.Proofs.PresentationOptions

/-! What a survey reports of a list of paths. Each path is inspected by itself, so the list decides
only how often a document is reported and, where shown paths differ in case alone, in which
order. -/
namespace DeclarationOutline

open Text

namespace Survey

variable {survey : Survey} {disk other : Disk} {paths : List Path}

end Survey

end DeclarationOutline
