import Bufr.Variable

/-!
Variables in full, attributes included, for diagnostics.
-/

namespace Bufr.Variable

def associatedText : Option Nat → String
  | some associated => "Some(" ++ toString associated ++ ")"
  | none => "None"

mutual

def describe : Variable → String
  | ⟨code, value, attributes, associated⟩ =>
    "Variable \x7b code: Descriptor " ++ code.digits ++ ", value: " ++ value.describe ++
      ", attributes: [" ++ ", ".intercalate (describeList attributes) ++ "], associated: " ++
      associatedText associated ++ " \x7d"

def describeList : List Variable → List String
  | [] => []
  | v :: rest => describe v :: describeList rest

end

end Bufr.Variable
