import ScopedConfig.Group
import ScopedConfig.Text.Name

namespace ScopedConfig

namespace Group

def WellNamed : Group → Prop
  | empty => True
  | scalar key _ rest => IsName key ∧ key ∉ rest.keys ∧ rest.WellNamed
  | nested key body rest => IsName key ∧ key ∉ rest.keys ∧ body.WellNamed ∧ rest.WellNamed

def decideWellNamed : (group : Group) → Decidable group.WellNamed
  | empty => isTrue trivial
  | scalar key _ rest =>
    have := rest.decideWellNamed
    inferInstanceAs (Decidable (IsName key ∧ key ∉ rest.keys ∧ rest.WellNamed))
  | nested key body rest =>
    have := body.decideWellNamed
    have := rest.decideWellNamed
    inferInstanceAs (Decidable
      (IsName key ∧ key ∉ rest.keys ∧ body.WellNamed ∧ rest.WellNamed))

instance : DecidablePred WellNamed := decideWellNamed

def OneLine : Group → Prop
  | empty => True
  | scalar _ value rest => '\n' ∉ value ∧ rest.OneLine
  | nested _ body rest => body.OneLine ∧ rest.OneLine

end Group

end ScopedConfig
