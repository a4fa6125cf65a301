import ThemeTemplates.Data.Basic
import ThemeTemplates.Failure.Basic

/-!
# View data

The variables of a template come in layers: what a partial inherits from the template that calls it,
then the defaults of its name, then what is passed explicitly. A later layer wins key by key.
-/

namespace ThemeTemplates

abbrev DefaultsProvider := String → Except HostError ViewData

def DefaultsProvider.none : DefaultsProvider :=
  fun _ => .ok []

def DefaultsProvider.layer (provider : DefaultsProvider) (template : String) :
    Except Failure ViewData :=
  (provider template).mapError (.collaborator "defaults")

namespace View

def resolveRoot (provider : DefaultsProvider) (template : String) (explicit : ViewData) :
    Except Failure ViewData := do
  let defaults ← provider.layer template
  return defaults.overlay explicit

def resolveChild (provider : DefaultsProvider) (template : String)
    (inherited explicit : ViewData) : Except Failure ViewData := do
  let defaults ← provider.layer template
  return (inherited.overlay defaults).overlay explicit

end View

inductive NamePattern where
  | exactly (name : String)
  | startingWith (stem : String)
deriving DecidableEq, Repr

namespace NamePattern

def ofString (written : String) : NamePattern :=
  match written.toList.reverse with
  | '*' :: stem => startingWith (String.ofList stem.reverse)
  | _ => exactly written

def accepts : NamePattern → String → Bool
  | exactly name, template => template == name
  | startingWith stem, template => stem.toList.isPrefixOf template.toList

end NamePattern

/-- A hook that contributes data to the templates its patterns accept. -/
structure Composer where
  patterns : List NamePattern
  compose : String → ViewData

namespace Composer

def applies (composer : Composer) (template : String) : Bool :=
  composer.patterns.any (·.accepts template)

/-- The data of all composers that apply to a template; of two with one key the later one wins. -/
def defaults (composers : List Composer) (template : String) : ViewData :=
  (composers.filter (·.applies template)).foldl
    (fun data composer => Fields.overlay data (composer.compose template)) []

def provider (composers : List Composer) : DefaultsProvider :=
  fun template => .ok (defaults composers template)

end Composer

end ThemeTemplates
