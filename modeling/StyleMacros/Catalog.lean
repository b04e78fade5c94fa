import StyleMacros.Invocation
import StyleMacros.Targets

/-!
# The catalog of attributes

What each attribute is written like, what it attaches to and which names it introduces. In a
list of names an asterisk stands for what is derived from the arguments.
-/

set_option autoImplicit false

namespace StyleMacros

structure CatalogEntry where
  name : MacroName
  signature : Text
  attachesTo : Text
  summary : Text
  /-- The names added inside the declaration. -/
  members : List Text
  /-- The names added next to the declaration. -/
  peers : List Text

namespace MacroName

def signature : MacroName → Text
  | .style => "@Style(subViews: [String])"
  | .registerStyle => "@RegisterStyle(String)"
  | .convenienceModifier => "@ConvenienceModifierForStyle(String)"
  | .component => "@UIComponent"

def attachesTo (targets : Targets) : MacroName → Text
  | .style => "protocol"
  | .registerStyle => "extension " ++ targets.environmentType
  | .convenienceModifier => "extension " ++ targets.viewType
  | .component => "struct"

def summary : MacroName → Text
  | .style => "Declares a view style with one configuration slot per sub-view."
  | .registerStyle => "Adds an environment accessor for the style's key."
  | .convenienceModifier => "Adds a view modifier that installs the style in the environment."
  | .component => "Adds content closures and a body rendered by the registered style."

def addedMembers : MacroName → List Text
  | .style => ["Body", "Configuration", "makeBody"]
  | .registerStyle => ["*"]
  | .convenienceModifier => ["*"]
  | .component => ["style", "Configuration", "*", "body"]

def addedPeers : MacroName → List Text
  | .style => ["*Configuration", "Default*", "Any*", "*Key"]
  | _ => []

end MacroName

def catalog (targets : Targets) : List CatalogEntry :=
  MacroName.all.map fun name =>
    ⟨name, name.signature, name.attachesTo targets, name.summary, name.addedMembers,
      name.addedPeers⟩

def CatalogEntry.find? (name : MacroName) (entries : List CatalogEntry) : Option CatalogEntry :=
  entries.find? (fun entry => entry.name = name)

end StyleMacros
