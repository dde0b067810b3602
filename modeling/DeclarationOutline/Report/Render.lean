import DeclarationOutline.Report.Json
import DeclarationOutline.Report.Yaml

/-! Reports in either format. -/
namespace DeclarationOutline

def Report.render (report : Report) : ReportFormat → String
  | .yaml => report.renderYaml
  | .json => report.renderJson

end DeclarationOutline
