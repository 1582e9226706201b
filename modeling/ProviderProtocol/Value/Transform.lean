import ProviderProtocol.Error
/-!
# Rebuilding a value bottom-up

`Value.transform visit v` calls `visit` once for every node of `v`, children before parents, siblings in order, the
root last and with the empty path.  A node is visited after it has been rebuilt from its transformed children; items
of a set are addressed by their value before the transformation.  A rebuilt node whose children no longer agree with
its type is a fault, and the first fault ends the traversal.

The visits run in any monad that can fail: `Except` where nothing else matters, a state with failure where the visits
are recorded.
-/
namespace ProviderProtocol

/-- The step from a list, set or tuple to its item at position `i`. -/
def Ty.itemStep (ty : Ty) (i : Nat) (item : Value) : Step :=
  match ty with
  | .set _ => .element item
  | _      => .index i

/-- The step from a map or an object to the entry with this key. -/
def Ty.entryStep (ty : Ty) (key : String) : Step :=
  match ty with
  | .object _ => .attribute key
  | _         => .key key

namespace Value

section

variable {m : Type → Type} [Monad m] [MonadExceptOf ProviderError m] (visit : Path → Value → m Value)

/-- A node from its transformed children, checked again. -/
def rebuild (ty : Ty) (c : Content) : m Value :=
  match of ty c with
  | .ok v    => pure v
  | .error e => throw (ProviderError.typeMismatch e)

mutual

def transformAt (path : Path) : Value → m Value
  | .null t              => visit path (.null t)
  | .unknown t           => visit path (.unknown t)
  | .known t (.list xs)  => do visit path (← rebuild t (.list (← transformItems path t 0 xs)))
  | .known t (.map es)   => do visit path (← rebuild t (.map (← transformEntries path t es)))
  | .known t (.string s) => visit path (.known t (.string s))
  | .known t (.number n) => visit path (.known t (.number n))
  | .known t (.bool b)   => visit path (.known t (.bool b))

def transformItems (path : Path) (ty : Ty) : Nat → List Value → m (List Value)
  | _, []      => pure []
  | i, x :: xs => do
    let y ← transformAt (path ++ [ty.itemStep i x]) x
    let ys ← transformItems path ty (i + 1) xs
    pure (y :: ys)

def transformEntries (path : Path) (ty : Ty) : List (String × Value) → m (List (String × Value))
  | []             => pure []
  | (key, x) :: es => do
    let y ← transformAt (path ++ [ty.entryStep key]) x
    let ys ← transformEntries path ty es
    pure ((key, y) :: ys)

end

def transform (v : Value) : m Value := transformAt visit [] v

end

end Value

end ProviderProtocol
