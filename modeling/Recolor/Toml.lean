namespace Recolor

inductive Toml where
  | string (text : String)
  | integer (value : Int)
  | float (lexeme : String)
  | bool (value : Bool)
  | date (lexeme : String)
  | array (items : List Toml)
  | table (members : List (String × Toml))
deriving Repr, Inhabited

namespace Toml

abbrev Members : Type := List (String × Toml)

def member? (key : String) (ms : Members) : Option Toml := ms.lookup key

end Toml

end Recolor
