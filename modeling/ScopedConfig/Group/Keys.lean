import ScopedConfig.Group

namespace ScopedConfig

namespace Group

def AllKeys (proper : Text → Prop) : Group → Prop
  | empty => True
  | scalar key _ rest => proper key ∧ rest.AllKeys proper
  | nested key body rest => proper key ∧ body.AllKeys proper ∧ rest.AllKeys proper

def Distinct : Group → Prop
  | empty => True
  | scalar key _ rest => key ∉ rest.keys ∧ rest.Distinct
  | nested key body rest => key ∉ rest.keys ∧ body.Distinct ∧ rest.Distinct

def decideAllKeys (proper : Text → Prop) [DecidablePred proper] :
    (group : Group) → Decidable (group.AllKeys proper)
  | empty => isTrue trivial
  | scalar key _ rest =>
    have := rest.decideAllKeys proper
    inferInstanceAs (Decidable (proper key ∧ rest.AllKeys proper))
  | nested key body rest =>
    have := body.decideAllKeys proper
    have := rest.decideAllKeys proper
    inferInstanceAs (Decidable (proper key ∧ body.AllKeys proper ∧ rest.AllKeys proper))

instance (proper : Text → Prop) [DecidablePred proper] : DecidablePred (AllKeys proper) :=
  decideAllKeys proper

def decideDistinct : (group : Group) → Decidable group.Distinct
  | empty => isTrue trivial
  | scalar key _ rest =>
    have := rest.decideDistinct
    inferInstanceAs (Decidable (key ∉ rest.keys ∧ rest.Distinct))
  | nested key body rest =>
    have := body.decideDistinct
    have := rest.decideDistinct
    inferInstanceAs (Decidable (key ∉ rest.keys ∧ body.Distinct ∧ rest.Distinct))

instance : DecidablePred Distinct := decideDistinct

end Group

end ScopedConfig
