/-!
# Sets of tokens

A set of token numbers as the bits of a natural number.
-/

namespace DecoratorVeil.Grammar

structure TokenSet where
  bits : Nat
  deriving DecidableEq, Repr

namespace TokenSet

def empty : TokenSet := ⟨0⟩

instance : Inhabited TokenSet := ⟨empty⟩

instance : EmptyCollection TokenSet := ⟨empty⟩

def single (token : Nat) : TokenSet := ⟨1 <<< token⟩

def contains (tokens : TokenSet) (token : Nat) : Bool := tokens.bits.testBit token

def isEmpty (tokens : TokenSet) : Bool := tokens.bits == 0

instance : Union TokenSet := ⟨fun a b => ⟨a.bits ||| b.bits⟩⟩

instance : Inter TokenSet := ⟨fun a b => ⟨a.bits &&& b.bits⟩⟩

def ofList (tokens : List Nat) : TokenSet :=
  tokens.foldl (fun found token => found ∪ single token) ∅

end TokenSet

end DecoratorVeil.Grammar
