import PanoStress.Config

/-!
# The ledger node

The node the client talks to, as far as the client's transfers are concerned: a pending nonce for
every address and the transfers it has accepted, in order. Accepting a transfer from an address
assigns it that address's pending nonce, the one ethers fills in from `getNonce('pending')`
inside `wallet.sendTransaction`, and increments the nonce (`Node.accept`); a submission that
throws was not accepted and changes nothing.
-/

namespace PanoStress

/-- A transfer the node accepted, with the nonce it assigned. -/
structure Transfer where
  hash : Hash
  «from» : Address
  «to» : Address
  nonce : Nat
deriving DecidableEq, Repr

/-- The node: pending nonce of every address, accepted transfers in order. -/
structure Node where
  nonces : Address → Nat
  accepted : List Transfer

namespace Node

/-- The node as the session finds it: pending nonces `nonces`, nothing accepted yet. -/
def init (nonces : Address → Nat) : Node := ⟨nonces, []⟩

/-- The node accepts `tx` from `a` under hash `h`. -/
def accept (n : Node) (a : Address) (tx : TxRequest) (h : Hash) : Node where
  nonces b := if b = a then n.nonces a + 1 else n.nonces b
  accepted := n.accepted ++ [⟨h, a, tx.«to», n.nonces a⟩]

@[simp] theorem init_nonces (nonces : Address → Nat) : (init nonces).nonces = nonces := rfl

@[simp] theorem init_accepted (nonces : Address → Nat) : (init nonces).accepted = [] := rfl

@[simp] theorem accept_nonces (n : Node) (a b : Address) (tx : TxRequest) (h : Hash) :
    (n.accept a tx h).nonces b = if b = a then n.nonces a + 1 else n.nonces b := rfl

@[simp] theorem accept_accepted (n : Node) (a : Address) (tx : TxRequest) (h : Hash) :
    (n.accept a tx h).accepted = n.accepted ++ [⟨h, a, tx.«to», n.nonces a⟩] := rfl

end Node

end PanoStress
