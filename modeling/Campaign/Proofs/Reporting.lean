import Campaign.Node.Sequential
import Campaign.Proofs.Entries
import Campaign.Proofs.Resolution
import Campaign.Report

/-!
# What a report says of the chain

A `Chain` is what is stored, without a node around it.  A node that `Serves` a chain answers every
question from it, at any time and in any state; so each inquiry has one outcome (`Act.Always`),
which can be read off the chain.

* `always_collectionId` and the lemmas after it: the outcome of each inquiry.
* `Sequential.serves`: the node that takes nonces in sequence serves what it was set up to keep.
* `Chain.Listing`: what a true report lists, and the report, field by field.
* `Report.report_is_true_to_chain`: **a report fails for a missing collection and for nothing else,
  and is true to the chain.**
-/

namespace Campaign

open Act
open scoped List

variable {ν τ σ α β : Type}

/-! ### Actions with one outcome -/

namespace Act

/-- An action ends in one way, whatever the state. -/
def Always (act : Act σ α) (r : Except Fault α) : Prop := ∀ s, (act.runOn s).1 = r

theorem always_pure (a : α) : Always (pure a : Act σ α) (.ok a) := fun _ => rfl

theorem always_throw (f : Fault) : Always (throw f : Act σ α) (.error f) := fun _ => rfl

theorem always_ofExcept (r : Except Fault α) : Always (ofExcept r : Act σ α) r := fun s => by
  rw [runOn_ofExcept]

theorem Always.bind {act : Act σ α} {next : α → Act σ β} {a : α} {r : Except Fault β}
    (h : Always act (.ok a)) (hnext : Always (next a) r) : Always (act >>= next) r := fun s => by
  rw [runOn_bind_ok (t := (act.runOn s).2) (Prod.ext (h s) rfl)]
  exact hnext _

theorem Always.bind_error {act : Act σ α} {next : α → Act σ β} {f : Fault}
    (h : Always act (.error f)) : Always (act >>= next) (.error f) := fun s => by
  rw [runOn_bind_error (t := (act.runOn s).2) (Prod.ext (h s) rfl)]

end Act

/-! ### Chains -/

/-- What is stored on a chain: values and maps by pallet, storage and parameters. -/
structure Chain where
  stored : (pallet storage params : Value) → Option Value
  entries : (pallet storage params : Value) → List (Value × Value)

/-- **A node that answers from a chain**, at any time and in any state.  Records of accounts are
left out: a nonce is no fixed part of a chain. -/
structure Node.Serves (node : Node ν τ) (chain : Chain) : Prop where
  query : ∀ now pallet (storage : String) params n, storage ≠ "Account" →
    ((node.query now pallet storage params).runOn n).1 = .ok (chain.stored pallet storage params)
  queryMap : ∀ now pallet storage params n,
    ((node.queryMap now pallet storage params).runOn n).1 =
      .ok (chain.entries pallet storage params)

namespace Chain

/-- A stored value, or nothing. -/
def value (chain : Chain) (pallet storage : Value) : Value :=
  (chain.stored pallet storage (.list [])).getD .null

/-- The tokens of an account in a collection. -/
def holdings (chain : Chain) (account collection : Value) : List Inquiry.Holding :=
  (chain.entries "Uniques" "Account" (.list [account, collection])).map fun e =>
    ⟨account, collection, e.1⟩

/-- What there is of one type of an origin of shell. -/
def inventory (chain : Chain) (pallets : Pallets) (type : ShellType) : Table String Value :=
  .ofList ((chain.entries pallets.sale "OriginOfShellsInventory"
    (.list [.text (Kind.value type)])).map fun e => (e.1.shown, e.2))

/-- Which of some stored values are true. -/
def flags (chain : Chain) (pallet : Value) (names : List (String × String)) :
    List (String × Bool) :=
  names.map fun n => (n.1, (chain.value pallet n.2).truthy)

/-- The report that is put together from a chain, with pending ids and results that were read. -/
def report (chain : Chain) (pallets : Pallets) (account : Value) (pending : List Value)
    (results : Table Value Value) : Report where
  account := account
  overlord := chain.value pallets.sale "Overlord"
  spirits := chain.holdings account (chain.value pallets.sale "SpiritCollectionId")
  shells := chain.holdings account (chain.value pallets.sale "OriginOfShellCollectionId")
  preorderIndex := Client.orEmpty (chain.value pallets.sale "PreorderIndex") (.int 0)
  pending := pending
  results := results
  era := chain.value pallets.sale "Era"
  zeroDay := chain.value pallets.sale "ZeroDay"
  inventory := Kind.all.map fun type => (type, chain.inventory pallets type)
  sale := chain.flags pallets.sale Inquiry.saleFlagNames
  incubation := {
    canStart := (chain.value pallets.incubation "CanStartIncubation").truthy
    hatchTime := chain.value pallets.incubation "OfficialHatchTime"
    shellCollection := chain.value pallets.incubation "ShellCollectionId" }

end Chain

/-- What a node that takes nonces in sequence was set up to keep. -/
def Sequential.chainOf (setup : Sequential.Setup τ) : Chain where
  stored := Sequential.kept? setup.storage
  entries pallet storage params := (Sequential.kept? setup.maps pallet storage params).getD []

/-- It answers from that, whatever it has taken since. -/
theorem Sequential.serves [Seconds τ] (setup : Sequential.Setup τ) :
    (Sequential.node setup).Serves (Sequential.chainOf setup) where
  query now pallet storage params n hstorage := by
    change (runOn (Sequential.query _ now pallet storage params) n).1 = _
    unfold Sequential.query
    split
    · rename_i haccount
      exact absurd (Value.text.inj haccount) hstorage
    · rfl
  queryMap _ _ _ _ _ := rfl

/-! ### Inquiries -/

namespace Inquiry

variable {node : Node ν τ} {chain : Chain} {pallets : Pallets} {account : Value}

section

variable (hserves : node.Serves chain)
include hserves

theorem always_query {storage : String} (hstorage : storage ≠ "Account") (pallet : Value) :
    Always (Client.query node pallet storage .null) (.ok (chain.value pallet storage)) := by
  have hfind : Always (Client.find? node pallet storage (.list []))
      (.ok (chain.stored pallet storage (.list []))) := fun w => by
    rw [Client.find?, World.runOn_call]
    exact hserves.query _ _ _ _ _ hstorage
  exact hfind.bind (always_pure _)

theorem always_queryMap (pallet storage params : Value) :
    Always (Client.queryMap node pallet storage params)
      (.ok (chain.entries pallet storage (Client.orEmpty params (.list [])))) := fun w => by
  rw [Client.queryMap, World.runOn_call]
  exact hserves.queryMap _ _ _ _ _

/-- **A collection that was never configured is a fault.** -/
theorem always_collectionId_null {storage : String} (hstorage : storage ≠ "Account")
    (hnull : chain.value pallets.sale storage = .null) (label : Value) :
    Always (collectionId node pallets storage label) (.error (.notConfigured label.shown)) := by
  refine (always_query hserves hstorage _).bind ?_
  rw [hnull]
  exact always_throw _

/-- **Any id is one of a collection**, be it 0. -/
theorem always_collectionId {storage : String} (hstorage : storage ≠ "Account")
    (hid : chain.value pallets.sale storage ≠ .null) (label : Value) :
    Always (collectionId node pallets storage label) (.ok (chain.value pallets.sale storage)) := by
  refine (always_query hserves hstorage _).bind ?_
  split
  · rename_i hnull
    exact absurd hnull hid
  · exact always_pure _

theorem always_holdings (collection : Value) :
    Always (holdings node account collection) (.ok (chain.holdings account collection)) :=
  (always_queryMap hserves _ _ _).bind (always_pure _)

theorem always_preorderIndex : Always (preorderIndex node pallets)
    (.ok (Client.orEmpty (chain.value pallets.sale "PreorderIndex") (.int 0))) :=
  (always_query hserves (by decide) _).bind (always_pure _)

theorem always_pendingPreorders : Always (pendingPreorders node pallets)
    (tableOf (chain.entries pallets.sale "Preorders" (.list []))) :=
  (always_queryMap hserves _ _ _).bind (always_ofExcept _)

theorem always_preorderResults : Always (preorderResults node pallets account)
    (tableOf (chain.entries pallets.sale "PreorderResults" (.list [account]))) :=
  (always_queryMap hserves _ _ _).bind (always_ofExcept _)

theorem always_inventories : ∀ types, Always (inventories node pallets types)
    (.ok (types.map fun type => (type, chain.inventory pallets type)))
  | [] => always_pure _
  | type :: types => by
    have hone : Always (inventory node pallets type) (.ok (chain.inventory pallets type)) :=
      (always_queryMap hserves _ _ _).bind (always_pure _)
    exact hone.bind ((always_inventories types).bind (always_pure _))

theorem always_flag {storage : String} (hstorage : storage ≠ "Account") (pallet : Value) :
    Always (flag node pallet storage) (.ok (chain.value pallet storage).truthy) :=
  (always_query hserves hstorage _).bind (always_pure _)

theorem always_flags (pallet : Value) : ∀ names : List (String × String),
    (∀ n ∈ names, n.2 ≠ "Account") →
      Always (flags node pallet names) (.ok (chain.flags pallet names))
  | [], _ => always_pure _
  | n :: names, hnames => by
    obtain ⟨hn, hnames⟩ := List.forall_mem_cons.mp hnames
    exact (always_flag hserves hn _).bind ((always_flags pallet names hnames).bind (always_pure _))

theorem always_incubationStatus : Always (incubationStatus node pallets)
    (.ok { canStart := (chain.value pallets.incubation "CanStartIncubation").truthy
           hatchTime := chain.value pallets.incubation "OfficialHatchTime"
           shellCollection := chain.value pallets.incubation "ShellCollectionId" }) :=
  (always_flag hserves (by decide) _).bind <| (always_query hserves (by decide) _).bind <|
    (always_query hserves (by decide) _).bind (always_pure _)

end

end Inquiry

/-! ### Reports -/

/-- The ids of some entries are whole numbers. -/
def HasIds (entries : List (Value × Value)) : Prop :=
  ∃ ids : List Int, entries.map Prod.fst = ids.map .int

/-- **What is shown of a map by the names of its keys**: each name once, with its last value. -/
structure ShowsLast (entries : List (Value × Value)) (shown : List (String × Value)) : Prop where
  nodup : (shown.map Prod.fst).Nodup
  last : ∀ name, Table.find? name shown =
    Table.find? name (entries.map fun e => (e.1.shown, e.2)).reverse

theorem showsLast_ofList (entries : List (Value × Value)) :
    ShowsLast entries (Table.ofList (entries.map fun e => (e.1.shown, e.2))).entries where
  nodup := (Table.keys_ofList _).1
  last name := Table.get?_ofList name _

namespace Chain

/-- **The ids and maps of a true report.**  The pending ids increase and are those on chain; each id
of a result comes once, with its last value; and each type has its own inventory. -/
structure Listing (chain : Chain) (pallets : Pallets) (account : Value) where
  pending : List Int
  increases : pending.Pairwise (· < ·)
  mem_pending : ∀ i, i ∈ pending ↔
    .int i ∈ (chain.entries pallets.sale "Preorders" (.list [])).map Prod.fst
  results : List (Int × Value)
  nodup : (results.map Prod.fst).Nodup
  last : ∀ i, Table.find? i results = Table.find? (.int i)
    (chain.entries pallets.sale "PreorderResults" (.list [account])).reverse
  prime : List (String × Value)
  magic : List (String × Value)
  legendary : List (String × Value)
  shows_prime : ShowsLast
    (chain.entries pallets.sale "OriginOfShellsInventory" (.list [.text "Prime"])) prime
  shows_magic : ShowsLast
    (chain.entries pallets.sale "OriginOfShellsInventory" (.list [.text "Magic"])) magic
  shows_legendary : ShowsLast
    (chain.entries pallets.sale "OriginOfShellsInventory" (.list [.text "Legendary"])) legendary

namespace Listing

variable {chain : Chain} {pallets : Pallets} {account : Value}

/-- The tokens of an account in the collection whose id is stored in a place. -/
def tokens (chain : Chain) (pallets : Pallets) (account storage : Value) : Value :=
  let id := chain.value pallets.sale storage
  .list ((chain.entries "Uniques" "Account" (.list [account, id])).map fun e =>
    .object [("account", account), ("collection_id", id), ("nft_id", e.1)])

theorem list_holdings (chain : Chain) (pallets : Pallets) (account storage : Value) :
    .list ((chain.holdings account (chain.value pallets.sale storage)).map
      Inquiry.Holding.toValue) = tokens chain pallets account storage := by
  rw [holdings, List.map_map]
  rfl

/-- **The true report.**  Every field says what is stored in its own place. -/
def report (l : chain.Listing pallets account) : Value :=
  let sale := chain.value pallets.sale
  let incubation := chain.value pallets.incubation
  .object [
    ("account", account),
    ("overlord", sale "Overlord"),
    ("spirits", tokens chain pallets account "SpiritCollectionId"),
    ("origin_of_shells", tokens chain pallets account "OriginOfShellCollectionId"),
    ("preorder_index", if (sale "PreorderIndex").truthy then sale "PreorderIndex" else .int 0),
    ("pending_preorders", .list (l.pending.map .int)),
    ("preorder_results", .dict (l.results.map fun e => (.int e.1, e.2))),
    ("era", sale "Era"),
    ("zero_day", sale "ZeroDay"),
    ("inventory", .object [
      ("Prime", .object l.prime),
      ("Magic", .object l.magic),
      ("Legendary", .object l.legendary)]),
    ("sale", .object [
      ("can_claim_spirits", .bool (sale "CanClaimSpirits").truthy),
      ("can_purchase_rare_origin_of_shells", .bool (sale "CanPurchaseRareOriginOfShells").truthy),
      ("can_purchase_prime_origin_of_shells", .bool (sale "CanPurchasePrimeOriginOfShells").truthy),
      ("can_preorder_origin_of_shells", .bool (sale "CanPreorderOriginOfShells").truthy),
      ("last_day_of_sale", .bool (sale "LastDayOfSale").truthy)]),
    ("incubation", .object [
      ("can_start_incubation", .bool (incubation "CanStartIncubation").truthy),
      ("official_hatch_time", incubation "OfficialHatchTime"),
      ("shell_collection_id", incubation "ShellCollectionId")])]

/-- The order of the preorders on chain does not matter, nor how often they come. -/
theorem pending_congr {other : Chain} {others : Pallets} {address : Value}
    (l : chain.Listing pallets account) (m : other.Listing others address)
    (hsame : ∀ k, k ∈ (other.entries others.sale "Preorders" (.list [])).map Prod.fst ↔
      k ∈ (chain.entries pallets.sale "Preorders" (.list [])).map Prod.fst) :
    m.pending = l.pending :=
  m.increases.sortedLT.eq_of_mem_iff l.increases.sortedLT fun i => by
    rw [m.mem_pending, l.mem_pending, hsame]

end Listing

end Chain

namespace Report

variable {node : Node ν τ} {chain : Chain} {pallets : Pallets} {account : Value}

section

variable (hserves : node.Serves chain)
include hserves

/-- Without a collection of spirits there is no report. -/
theorem always_ofChain_spirit (hspirit : chain.value pallets.sale "SpiritCollectionId" = .null) :
    Always (ofChain node pallets account) (.error (.notConfigured "Spirit")) :=
  (Inquiry.always_query hserves (by decide) _).bind <|
    ((Inquiry.always_collectionId_null hserves (by decide) hspirit "Spirit").bind_error).bind_error

/-- Without a collection of origins of shell there is no report. -/
theorem always_ofChain_shell (hspirit : chain.value pallets.sale "SpiritCollectionId" ≠ .null)
    (hshell : chain.value pallets.sale "OriginOfShellCollectionId" = .null) :
    Always (ofChain node pallets account) (.error (.notConfigured "Origin of Shell")) :=
  (Inquiry.always_query hserves (by decide) _).bind <|
    ((Inquiry.always_collectionId hserves (by decide) hspirit "Spirit").bind
      (Inquiry.always_holdings hserves _)).bind <|
    ((Inquiry.always_collectionId_null hserves (by decide) hshell
      "Origin of Shell").bind_error).bind_error

/-- **With both collections there is a report**, if the ids on chain can be put in order. -/
theorem always_ofChain (hspirit : chain.value pallets.sale "SpiritCollectionId" ≠ .null)
    (hshell : chain.value pallets.sale "OriginOfShellCollectionId" ≠ .null)
    {pending results : Table Value Value} {ids : List Value}
    (hpending : Inquiry.tableOf (chain.entries pallets.sale "Preorders" (.list [])) = .ok pending)
    (hids : Value.sort pending.keys = .ok ids)
    (hresults : Inquiry.tableOf (chain.entries pallets.sale "PreorderResults" (.list [account])) =
      .ok results) :
    Always (ofChain node pallets account) (.ok (chain.report pallets account ids results)) := by
  have hlisted : Always (Inquiry.pendingPreorders node pallets) (.ok pending) :=
    hpending ▸ Inquiry.always_pendingPreorders hserves
  have hresolved : Always (Inquiry.preorderResults node pallets account) (.ok results) :=
    hresults ▸ Inquiry.always_preorderResults hserves
  -- one inquiry after the other, in the order in which the report asks
  refine (Inquiry.always_query hserves (by decide) _).bind ?_
  refine ((Inquiry.always_collectionId hserves (by decide) hspirit _).bind
    (Inquiry.always_holdings hserves _)).bind ?_
  refine ((Inquiry.always_collectionId hserves (by decide) hshell _).bind
    (Inquiry.always_holdings hserves _)).bind ?_
  refine (Inquiry.always_preorderIndex hserves).bind ?_
  refine hlisted.bind ?_
  rw [hids]
  refine (always_ofExcept _).bind ?_
  refine hresolved.bind ?_
  refine (Inquiry.always_query hserves (by decide) _).bind ?_
  refine (Inquiry.always_query hserves (by decide) _).bind ?_
  refine (Inquiry.always_inventories hserves _).bind ?_
  refine (Inquiry.always_flags hserves _ _ (by decide)).bind ?_
  exact (Inquiry.always_incubationStatus hserves).bind (always_pure _)

end

theorem ofList_of_tableOf {entries : List (Value × Value)} {table : Table Value Value}
    (h : Inquiry.tableOf entries = .ok table) : table = .ofList entries := by
  rw [Inquiry.tableOf] at h
  split at h
  · cases h
  · exact (Except.ok.inj h).symm

/-- **What is stored with ids can be listed**, and the report that lists it is true. -/
theorem exists_listing (chain : Chain) (pallets : Pallets) (account : Value)
    (hpreorders : HasIds (chain.entries pallets.sale "Preorders" (.list [])))
    (hresults : HasIds (chain.entries pallets.sale "PreorderResults" (.list [account]))) :
    ∃ (pending results : Table Value Value) (ids : List Value)
      (l : chain.Listing pallets account),
      Inquiry.tableOf (chain.entries pallets.sale "Preorders" (.list [])) = .ok pending ∧
      Value.sort pending.keys = .ok ids ∧
      Inquiry.tableOf (chain.entries pallets.sale "PreorderResults" (.list [account])) =
        .ok results ∧
      (chain.report pallets account ids results).toValue = l.report := by
  obtain ⟨ns, hns⟩ := hpreorders
  obtain ⟨ms, hms⟩ := hresults
  obtain ⟨pending, ks, hpending, honce, hkeys⟩ := Inquiry.tableOf_ints hns
  obtain ⟨results, ls, hlisted, hlast, hresolved⟩ := Inquiry.tableOf_ints hms
  obtain ⟨shown, hshown, rfl⟩ := Table.exists_int_entries hresolved
  have hsort := List.mergeSort_perm ks fun a b => decide (a ≤ b)
  refine ⟨pending, results, ks.mergeSort.map .int, {
    pending := ks.mergeSort
    increases := (List.sortedLE_mergeSort.sortedLT_of_nodup
      (hsort.nodup_iff.mpr honce.nodup)).pairwise
    mem_pending := fun i => ?_
    results := shown
    nodup := hlast.nodup
    last := fun i => ?_
    prime := (chain.inventory pallets .prime).entries
    magic := (chain.inventory pallets .magic).entries
    legendary := (chain.inventory pallets .legendary).entries
    shows_prime := showsLast_ofList _
    shows_magic := showsLast_ofList _
    shows_legendary := showsLast_ofList _ }, hpending, ?_, hlisted, ?_⟩
  · rw [hsort.mem_iff, honce.mem_iff, hns]
    simp
  · rw [← Table.find?_ints, ← hshown, ofList_of_tableOf hlisted]
    exact Table.get?_ofList_int i hms
  · rw [hkeys]
    exact Value.sort_ints ks
  · simp only [toValue, Chain.report, hshown, Chain.Listing.list_holdings]
    rfl

/-- **A report fails for a missing collection and for nothing else, and is true to the chain.**  Any
id that is stored is one of a collection, be it 0.  Of two chains with the same preorders, in any
order, the same ones are pending. -/
theorem report_is_true_to_chain {node : Node ν τ} {chain : Chain} (hserves : node.Serves chain)
    {pallets : Pallets} {account : Value}
    (hpreorders : HasIds (chain.entries pallets.sale "Preorders" (.list [])))
    (hresults : HasIds (chain.entries pallets.sale "PreorderResults" (.list [account])))
    (w : World ν τ) :
    let spirit := chain.value pallets.sale "SpiritCollectionId"
    let shell := chain.value pallets.sale "OriginOfShellCollectionId"
    let out := ((ofChain node pallets account).runOn w).1
    (spirit = .null → ∃ f, out = .error f ∧ f.kind = "PreconditionError" ∧
      f.message = "Spirit Collection ID not configured") ∧
    (spirit ≠ .null → shell = .null → ∃ f, out = .error f ∧ f.kind = "PreconditionError" ∧
      f.message = "Origin of Shell Collection ID not configured") ∧
    (spirit ≠ .null → shell ≠ .null → ∃ l : chain.Listing pallets account,
      out.map toValue = .ok l.report ∧
      ∀ (other : Chain) (m : other.Listing pallets account),
        other.entries pallets.sale "Preorders" (.list []) ~
            chain.entries pallets.sale "Preorders" (.list []) →
          m.pending = l.pending) := by
  intro spirit shell out
  refine ⟨fun hspirit => ?_, fun hspirit hshell => ?_, fun hspirit hshell => ?_⟩
  · exact ⟨_, always_ofChain_spirit hserves hspirit w, rfl, by decide⟩
  · exact ⟨_, always_ofChain_shell hserves hspirit hshell w, rfl, by decide⟩
  · obtain ⟨pending, results, ids, l, hpending, hids, hlisted, hreport⟩ :=
      exists_listing chain pallets account hpreorders hresults
    have hout : out = .ok (chain.report pallets account ids results) :=
      always_ofChain hserves hspirit hshell hpending hids hlisted w
    refine ⟨l, ?_, fun other m hperm => l.pending_congr m fun k => ?_⟩
    · rw [hout, ← hreport]
      rfl
    · exact (hperm.map Prod.fst).mem_iff

/-- A chain whose collection of spirits has the id 0, and that lists a preorder twice. -/
def onSale : Sequential.Setup Value where
  storage := [
    ("PwNftSale", "SpiritCollectionId", .list [], .int 0),
    ("PwNftSale", "OriginOfShellCollectionId", .list [], .int 1)]
  maps := [
    ("Uniques", "Account", .list ["a", .int 0], [(.int 5, .null)]),
    ("PwNftSale", "Preorders", .list [], [(.int 13, .null), (.int 7, .null), (.int 13, .null)])]

/-- There is a report on it, in which both preorders are pending, in order and once. -/
theorem report_is_true_to_chain_onSale :
    ∃ l : (Sequential.chainOf onSale).Listing {} "a",
      ((ofChain (Sequential.node onSale) {} "a").runOn
        { node := .ofNonces .empty, clock := { now := .int 0 } }).1.map toValue = .ok l.report ∧
      l.pending = [7, 13] := by
  let chain := Sequential.chainOf onSale
  have hpreorders : chain.entries "PwNftSale" "Preorders" (.list []) =
      [(.int 13, .null), (.int 7, .null), (.int 13, .null)] := by
    simp [chain, Sequential.chainOf, Sequential.kept?, onSale, Value.identical,
      Value.identicalItems]
  have hresults : chain.entries "PwNftSale" "PreorderResults" (.list ["a"]) = [] := by
    simp [chain, Sequential.chainOf, Sequential.kept?, onSale, Value.identical]
  have hids : chain.value "PwNftSale" "SpiritCollectionId" ≠ .null ∧
      chain.value "PwNftSale" "OriginOfShellCollectionId" ≠ .null := by
    simp [chain, Chain.value, Sequential.chainOf, Sequential.kept?, onSale, Value.identical,
      Value.identicalItems]
  obtain ⟨-, -, hreport⟩ := @report_is_true_to_chain _ _ _ chain (Sequential.serves onSale) {} "a"
    ⟨[13, 7, 13], by rw [hpreorders]; rfl⟩ ⟨[], by rw [hresults]; rfl⟩
    { node := .ofNonces .empty, clock := { now := .int 0 } }
  obtain ⟨l, hl, -⟩ := hreport hids.1 hids.2
  refine ⟨l, hl, l.increases.sortedLT.eq_of_mem_iff (by decide) fun i => ?_⟩
  rw [l.mem_pending, hpreorders]
  simp
  tauto

end Report

end Campaign
