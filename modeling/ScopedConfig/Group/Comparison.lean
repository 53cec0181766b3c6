import ScopedConfig.Group

namespace ScopedConfig

namespace Group

def within : Group → Group → Bool
  | empty, _ => true
  | scalar key value rest, other =>
    other.get? key == some (.scalar value) && rest.within other
  | nested key body rest, other =>
    (match other.get? key with
      | some (.group inner) => body.size == inner.size && body.within inner
      | _ => false) && rest.within other

/-- Whether two groups have the same keys with the same entries, in whatever order. -/
def sameAs (left right : Group) : Bool := left.size == right.size && left.within right

end Group

end ScopedConfig
