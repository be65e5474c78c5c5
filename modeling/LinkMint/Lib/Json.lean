/-!
# JSON values
-/

namespace LinkMint.Lib

inductive Json where
  | null
  | bool (b : Bool)
  | int (n : Int)
  | str (s : String)
  | arr (items : List Json)
  | obj (members : List (String × Json))

end LinkMint.Lib
