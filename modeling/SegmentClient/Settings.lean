namespace SegmentClient

structure StorePath where
  text : String
deriving Repr

namespace StorePath

def segments (text : List Char) : List (List Char) :=
  text.foldr
    (fun c parts =>
      if c = '/' then [] :: parts
      else
        match parts with
        | [] => [[c]]
        | part :: parts => (c :: part) :: parts)
    [[]]

/-- The components of a path: a slash at its beginning or, without one, a dot; then every segment
that is neither empty nor a dot. Two dots are a segment like others. -/
def components (path : StorePath) : List (List Char) :=
  let parts := segments path.text.toList
  let named := parts.filter fun part => part ≠ [] ∧ part ≠ ['.']
  match parts with
  | [] :: _ :: _ => ['/'] :: named
  | ['.'] :: _ => ['.'] :: named
  | _ => named

instance : BEq StorePath := ⟨fun a b => a.components == b.components⟩

end StorePath

structure Settings where
  tls : Bool := false
  trustStore : Option StorePath := none
  checkHostName : Bool := true
deriving BEq, Repr

end SegmentClient
