import Campaign.Act

/-!
# Nodes

A node answers queries, composes calls and takes extrinsics. Nothing is assumed of it: each of its
operations is an action on its own state, which may fail in any way. Queries are given the time.
Names of pallets, storages and functions are values, since a caller may ask for anything, and so are
the names that a node goes by.
-/

namespace Campaign

/-- A call with its signer and the signer's nonce. -/
structure Extrinsic where
  address : String
  nonce : Int
  call : Value

/-- What a node offers. -/
structure Node (ν τ : Type) where
  chain : Value
  version : Value
  /-- A stored value, if there is one. -/
  query : τ → (pallet storage params : Value) → Act ν (Option Value)
  /-- The entries of a stored map. -/
  queryMap : τ → (pallet storage params : Value) → Act ν (List (Value × Value))
  compose : (pallet function params : Value) → Act ν Value
  sign : Extrinsic → Act ν Unit
  /-- Takes an extrinsic into the pool and gives its hash, if it has one. -/
  submit : Extrinsic → Act ν (Option String)

/-- The name a node goes by. -/
def Node.describe {ν τ : Type} (node : Node ν τ) : String :=
  node.chain.shown ++ " (" ++ node.version.shown ++ ")"

end Campaign
