import DeclarationOutline.Path

/-! Where the preferences of a user are kept. -/
namespace DeclarationOutline.Preference

def directoryName : Path := ⟨"capl-outline"⟩
def fileName : Path := ⟨"config.yaml"⟩

/-- The user's home directory: the one that is set, unless it is empty, else that
of the account. -/
def home? (home account : Option Path) : Option Path :=
  home.filter (!·.text.isEmpty) <|> account

/-- The directory, below the configuration home if one is set, else below the
user's home directory. -/
def directory? (configHome home account : Option Path) : Option Path :=
  (configHome <|> (home? home account).map (·.join ⟨".config"⟩)).map (·.join directoryName)

def file? (configHome home account : Option Path) : Option Path :=
  (directory? configHome home account).map (·.join fileName)

end DeclarationOutline.Preference
