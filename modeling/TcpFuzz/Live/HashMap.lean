import Mathlib.Data.List.Dedup
import Mathlib.Data.List.Nodup
import Mathlib.Data.List.Perm.Basic
import Mathlib.Data.Nat.Bitwise
import Mathlib.Logic.Function.Basic
import Mathlib.Tactic.Common

/-! `hash_map.c`: a chained hash table that doubles its buckets in the middle of an insertion. The hash function is
a parameter. -/

namespace TcpFuzz

structure HashNode where
  key : UInt32
  value : UInt32
deriving DecidableEq, Repr

structure HashMap where
  numKeys : Nat
  numBuckets : Nat
  bucketMask : Nat
  buckets : List (List HashNode)
deriving DecidableEq, Repr

def maxBuckets : Nat := 2 ^ 30

/-- Double the count until it reaches the number of keys or the largest count. -/
def pickBucketCount (numKeys buckets : Nat) : Nat :=
  if 0 < buckets ∧ buckets < numKeys ∧ buckets < maxBuckets then pickBucketCount numKeys (2 * buckets) else buckets
termination_by numKeys - buckets

def hashMapPickBucketCount (numKeys : Nat) : Nat := pickBucketCount numKeys 1

def emptyBuckets (numKeys numBuckets : Nat) : HashMap :=
  ⟨numKeys, numBuckets, numBuckets - 1, List.replicate numBuckets []⟩

def hashMapNew (numKeys : Nat) : HashMap := emptyBuckets 0 (hashMapPickBucketCount numKeys)

section Operations

variable (hash : UInt32 → UInt32)

def hashBucketNum (map : HashMap) (key : UInt32) : Nat := (hash key).toNat &&& map.bucketMask

def hashMapLink (map : HashMap) (node : HashNode) : HashMap :=
  { map with buckets := map.buckets.modify (hashBucketNum hash map node.key) (node :: ·) }

def hashMapGrow (map : HashMap) : HashMap :=
  map.buckets.foldl (fun grown bucket => bucket.foldl (hashMapLink hash) grown)
    (emptyBuckets map.numKeys (2 * map.numBuckets))

def hashMapInsert (map : HashMap) (key value : UInt32) : HashMap :=
  let map := if map.numBuckets ≤ map.numKeys ∧ map.numBuckets < maxBuckets then hashMapGrow hash map else map
  hashMapLink hash { map with numKeys := map.numKeys + 1 } ⟨key, value⟩

def overwrite (key value : UInt32) : List HashNode → Option (List HashNode)
  | [] => none
  | node :: nodes =>
    if node.key = key then some ({ node with value } :: nodes) else (overwrite key value nodes).map (node :: ·)

def hashMapSet (map : HashMap) (key value : UInt32) : HashMap :=
  let bucketNum := hashBucketNum hash map key
  match overwrite key value (map.buckets.getD bucketNum []) with
  | some bucket => { map with buckets := map.buckets.set bucketNum bucket }
  | none => hashMapInsert hash map key value

def hashMapGet (map : HashMap) (key : UInt32) : Option UInt32 :=
  ((map.buckets.getD (hashBucketNum hash map key) []).find? (·.key = key)).map HashNode.value

end Operations

def HashMap.nodes (map : HashMap) : List HashNode := map.buckets.flatten

/-- A power of two of buckets, each of which holds nodes of its own only. -/
structure HashMap.Shaped (hash : UInt32 → UInt32) (map : HashMap) : Prop where
  powerOfTwo : ∃ k, map.numBuckets = 2 ^ k
  mask : map.bucketMask = map.numBuckets - 1
  size : map.buckets.length = map.numBuckets
  placed : ∀ i, ∀ node ∈ map.buckets.getD i [], hashBucketNum hash map node.key = i

structure HashMap.Valid (hash : UInt32 → UInt32) (map : HashMap) : Prop extends map.Shaped hash where
  distinct : (map.nodes.map HashNode.key).Nodup
  counted : map.numKeys = map.nodes.length

section Shape

variable {hash : UInt32 → UInt32} {map : HashMap}

theorem pickBucketCount_powerOfTwo (numKeys : Nat) {buckets : Nat} (power : ∃ k, buckets = 2 ^ k) :
    ∃ k, pickBucketCount numKeys buckets = 2 ^ k := by
  fun_induction pickBucketCount numKeys buckets with
  | case1 buckets more ih =>
    obtain ⟨k, rfl⟩ := power
    exact ih ⟨k + 1, (Nat.pow_succ').symm⟩
  | case2 buckets done => exact power

theorem emptyBuckets_nodes (numKeys numBuckets : Nat) : (emptyBuckets numKeys numBuckets).nodes = [] := by
  simp [HashMap.nodes, emptyBuckets]

theorem emptyBuckets_shaped {numBuckets : Nat} (numKeys : Nat) (power : ∃ k, numBuckets = 2 ^ k) :
    (emptyBuckets numKeys numBuckets).Shaped hash where
  powerOfTwo := power
  mask := rfl
  size := by simp [emptyBuckets]
  placed i node member := by
    have empty : (emptyBuckets numKeys numBuckets).buckets.getD i [] = [] := by
      rw [emptyBuckets, List.getD_eq_getElem?_getD, List.getElem?_replicate]
      split <;> rfl
    rw [empty] at member
    cases member

theorem HashMap.Shaped.bucketNum_lt (shaped : map.Shaped hash) (key : UInt32) :
    hashBucketNum hash map key < map.buckets.length := by
  obtain ⟨k, power⟩ := shaped.powerOfTwo
  rw [hashBucketNum, shaped.mask, shaped.size, power, Nat.and_two_pow_sub_one_eq_mod]
  exact Nat.mod_lt _ (Nat.two_pow_pos k)

theorem HashMap.Shaped.mem_nodes (shaped : map.Shaped hash) {node : HashNode} :
    node ∈ map.nodes ↔ node ∈ map.buckets.getD (hashBucketNum hash map node.key) [] := by
  constructor
  · intro member
    obtain ⟨bucket, listed, inside⟩ := List.mem_flatten.mp member
    obtain ⟨i, bound, rfl⟩ := List.getElem_of_mem listed
    rw [← List.getD_eq_getElem map.buckets [] bound] at inside
    rwa [shaped.placed i node inside]
  · intro inside
    have bound := shaped.bucketNum_lt node.key
    rw [List.getD_eq_getElem map.buckets [] bound] at inside
    exact List.mem_flatten.mpr ⟨_, List.getElem_mem bound, inside⟩

theorem flatten_modify_cons {α : Type} {lists : List (List α)} {i : Nat} (inside : i < lists.length) (a : α) :
    (lists.modify i (a :: ·)).flatten.Perm (a :: lists.flatten) := by
  induction lists generalizing i with
  | nil => cases inside
  | cons first lists ih =>
    cases i with
    | zero => simp
    | succ i =>
      have rest := ih (i := i) (by simpa using inside)
      rw [List.modify_succ_cons, List.flatten_cons, List.flatten_cons]
      exact (rest.append_left first).trans List.perm_middle

theorem hashMapLink_nodes (shaped : map.Shaped hash) (node : HashNode) :
    (hashMapLink hash map node).nodes.Perm (node :: map.nodes) :=
  flatten_modify_cons (shaped.bucketNum_lt node.key) node

theorem hashMapLink_shaped (shaped : map.Shaped hash) (node : HashNode) :
    (hashMapLink hash map node).Shaped hash where
  powerOfTwo := shaped.powerOfTwo
  mask := shaped.mask
  size := by simpa [hashMapLink] using shaped.size
  placed i other member := by
    have there : other ∈ ((map.buckets.modify (hashBucketNum hash map node.key) (node :: ·))[i]?).getD [] := by
      rwa [hashMapLink, List.getD_eq_getElem?_getD] at member
    rw [List.getElem?_modify] at there
    split at there
    next here =>
      cases bucket : map.buckets[i]? with
      | none => simp [bucket] at there
      | some nodes =>
        rw [bucket] at there
        rcases List.mem_cons.mp there with rfl | old
        · exact here
        · exact shaped.placed i other (by simpa [List.getD_eq_getElem?_getD, bucket] using old)
    next =>
      exact shaped.placed i other (by simpa [List.getD_eq_getElem?_getD] using there)

theorem foldl_hashMapLink (shaped : map.Shaped hash) (added : List HashNode) :
    (added.foldl (hashMapLink hash) map).Shaped hash ∧
      (added.foldl (hashMapLink hash) map).numKeys = map.numKeys ∧
      (added.foldl (hashMapLink hash) map).nodes.Perm (added ++ map.nodes) := by
  induction added generalizing map with
  | nil => exact ⟨shaped, rfl, .refl _⟩
  | cons node added ih =>
    obtain ⟨result, keys, moved⟩ := ih (hashMapLink_shaped shaped node)
    refine ⟨result, keys, moved.trans ?_⟩
    exact ((hashMapLink_nodes shaped node).append_left added).trans List.perm_middle

theorem hashMapGrow_spec (shaped : map.Shaped hash) :
    (hashMapGrow hash map).Shaped hash ∧ (hashMapGrow hash map).numKeys = map.numKeys ∧
      (hashMapGrow hash map).nodes.Perm map.nodes := by
  obtain ⟨k, power⟩ := shaped.powerOfTwo
  have fresh : (emptyBuckets map.numKeys (2 * map.numBuckets)).Shaped hash :=
    emptyBuckets_shaped _ ⟨k + 1, by rw [power, Nat.pow_succ']⟩
  have moved := foldl_hashMapLink fresh map.nodes
  rwa [emptyBuckets_nodes, List.append_nil, HashMap.nodes, List.foldl_flatten] at moved

end Shape

section Update

variable {hash : UInt32 → UInt32} {map : HashMap}

theorem HashMap.Valid.node_unique (valid : map.Valid hash) {node other : HashNode} (member : node ∈ map.nodes)
    (member' : other ∈ map.nodes) (same : node.key = other.key) : node = other :=
  List.inj_on_of_nodup_map valid.distinct member member' same

theorem hashMapGet_eq_some (valid : map.Valid hash) {key value : UInt32} :
    hashMapGet hash map key = some value ↔ ⟨key, value⟩ ∈ map.nodes := by
  have inside : (⟨key, value⟩ : HashNode) ∈ map.nodes ↔ _ := valid.toShaped.mem_nodes
  rw [hashMapGet, Option.map_eq_some_iff]
  constructor
  · rintro ⟨node, found, rfl⟩
    obtain rfl : node.key = key := by simpa using List.find?_some found
    exact inside.mpr (List.mem_of_find?_eq_some found)
  · intro member
    have present := inside.mp member
    cases found : (map.buckets.getD (hashBucketNum hash map key) []).find? (·.key = key) with
    | none =>
      have absent := List.find?_eq_none.mp found _ present
      simp at absent
    | some node =>
      obtain rfl : node.key = key := by simpa using List.find?_some found
      have listed := valid.toShaped.mem_nodes.mpr (List.mem_of_find?_eq_some found)
      exact ⟨node, rfl, congrArg HashNode.value (valid.node_unique listed member rfl)⟩

theorem hashMapGet_of_nodes {map' : HashMap} (valid : map.Valid hash) (valid' : map'.Valid hash) {key value : UInt32}
    (here : ⟨key, value⟩ ∈ map'.nodes)
    (others : ∀ node : HashNode, node.key ≠ key → (node ∈ map'.nodes ↔ node ∈ map.nodes)) :
    hashMapGet hash map' = Function.update (hashMapGet hash map) key (some value) := by
  funext k
  apply Option.ext
  intro v
  by_cases same : k = key
  · subst same
    rw [Function.update_self, hashMapGet_eq_some valid']
    constructor
    · intro member
      cases valid'.node_unique here member rfl
      rfl
    · intro equal
      cases equal
      exact here
  · rw [Function.update_of_ne same, hashMapGet_eq_some valid', hashMapGet_eq_some valid]
    exact others ⟨k, v⟩ same

theorem overwrite_eq_some {key value : UInt32} {nodes result : List HashNode}
    (found : overwrite key value nodes = some result) :
    ∃ before old after, nodes = before ++ ⟨key, old⟩ :: after ∧ result = before ++ ⟨key, value⟩ :: after := by
  induction nodes generalizing result with
  | nil => cases found
  | cons node nodes ih =>
    unfold overwrite at found
    split at found
    next here =>
      cases found
      subst here
      exact ⟨[], node.value, nodes, rfl, rfl⟩
    next =>
      obtain ⟨rest, later, rfl⟩ := Option.map_eq_some_iff.mp found
      obtain ⟨before, old, after, rfl, rfl⟩ := ih later
      exact ⟨node :: before, old, after, rfl, rfl⟩

theorem overwrite_eq_none {key value : UInt32} {nodes : List HashNode} (absent : overwrite key value nodes = none) :
    ∀ node ∈ nodes, node.key ≠ key := by
  induction nodes with
  | nil => simp
  | cons node nodes ih =>
    unfold overwrite at absent
    split at absent
    · cases absent
    next other =>
      exact List.forall_mem_cons.mpr ⟨other, ih (Option.map_eq_none_iff.mp absent)⟩

theorem flatten_set {α : Type} {lists : List (List α)} {i : Nat} (inside : i < lists.length) :
    ∃ front back, lists.flatten = front ++ lists.getD i [] ++ back ∧
      ∀ new, (lists.set i new).flatten = front ++ new ++ back := by
  induction lists generalizing i with
  | nil => cases inside
  | cons first lists ih =>
    cases i with
    | zero => exact ⟨[], lists.flatten, by simp, by simp⟩
    | succ i =>
      obtain ⟨front, back, whole, exchanged⟩ := ih (i := i) (by simpa using inside)
      exact ⟨first ++ front, back, by simpa using whole, fun new => by simpa using exchanged new⟩

theorem overwrite_spec (valid : map.Valid hash) {key value : UInt32} {bucket : List HashNode}
    (found : overwrite key value (map.buckets.getD (hashBucketNum hash map key) []) = some bucket) :
    let map' := { map with buckets := map.buckets.set (hashBucketNum hash map key) bucket }
    map'.Valid hash ∧ hashMapGet hash map' = Function.update (hashMapGet hash map) key (some value) := by
  intro map'
  have bound := valid.toShaped.bucketNum_lt key
  obtain ⟨front, back, whole, exchanged⟩ := flatten_set bound
  obtain ⟨before, old, after, split, rfl⟩ := overwrite_eq_some found
  rw [split] at whole
  have nodes : map.nodes = (front ++ before) ++ ⟨key, old⟩ :: (after ++ back) := by simpa [HashMap.nodes] using whole
  have nodes' : map'.nodes = (front ++ before) ++ ⟨key, value⟩ :: (after ++ back) := by
    simpa [HashMap.nodes] using exchanged (before ++ ⟨key, value⟩ :: after)
  have keys : map'.nodes.map HashNode.key = map.nodes.map HashNode.key := by rw [nodes, nodes']; simp
  have placed : ∀ i, ∀ node ∈ map'.buckets.getD i [], hashBucketNum hash map' node.key = i := by
    intro i node member
    by_cases here : i = hashBucketNum hash map key
    · subst here
      have there : node ∈ before ++ ⟨key, value⟩ :: after := by
        simpa [map', List.getD_eq_getElem?_getD, bound] using member
      have old (inside : node ∈ before ++ ⟨key, old⟩ :: after) :
          hashBucketNum hash map node.key = hashBucketNum hash map key :=
        valid.placed _ node (split ▸ inside)
      rcases List.mem_append.mp there with first | second
      · exact old (List.mem_append_left _ first)
      · rcases List.mem_cons.mp second with rfl | second
        · rfl
        · exact old (List.mem_append_right _ (List.mem_cons_of_mem _ second))
    · apply valid.placed i node
      simpa [map', List.getD_eq_getElem?_getD, List.getElem?_set_ne (Ne.symm here)] using member
  have valid' : map'.Valid hash := by
    refine ⟨⟨valid.powerOfTwo, valid.mask, by simpa [map'] using valid.size, placed⟩, ?_, ?_⟩
    · rw [keys]
      exact valid.distinct
    · have lengths := congrArg List.length keys
      rw [List.length_map, List.length_map] at lengths
      exact valid.counted.trans lengths.symm
  refine ⟨valid', hashMapGet_of_nodes valid valid' ?_ fun node other => ?_⟩
  · rw [nodes']
    simp
  · have different (v : UInt32) : node ≠ ⟨key, v⟩ := fun same => other (congrArg HashNode.key same)
    rw [nodes, nodes']
    simp [different]

theorem hashMapInsert_spec (valid : map.Valid hash) {key value : UInt32} (absent : ∀ node ∈ map.nodes, node.key ≠ key) :
    (hashMapInsert hash map key value).Valid hash ∧
      hashMapGet hash (hashMapInsert hash map key value) = Function.update (hashMapGet hash map) key (some value) := by
  let roomy := if map.numBuckets ≤ map.numKeys ∧ map.numBuckets < maxBuckets then hashMapGrow hash map else map
  obtain ⟨shaped, keys, moved⟩ : roomy.Shaped hash ∧ roomy.numKeys = map.numKeys ∧ roomy.nodes.Perm map.nodes := by
    by_cases full : map.numBuckets ≤ map.numKeys ∧ map.numBuckets < maxBuckets
    · rw [show roomy = hashMapGrow hash map from if_pos full]
      exact hashMapGrow_spec valid.toShaped
    · rw [show roomy = map from if_neg full]
      exact ⟨valid.toShaped, rfl, .refl _⟩
  have counted : ({ roomy with numKeys := roomy.numKeys + 1 } : HashMap).Shaped hash :=
    ⟨shaped.powerOfTwo, shaped.mask, shaped.size, shaped.placed⟩
  have nodes : (hashMapInsert hash map key value).nodes.Perm (⟨key, value⟩ :: map.nodes) :=
    (hashMapLink_nodes counted ⟨key, value⟩).trans (moved.cons _)
  have valid' : (hashMapInsert hash map key value).Valid hash := by
    refine ⟨hashMapLink_shaped counted ⟨key, value⟩, ?_, ?_⟩
    · rw [(nodes.map HashNode.key).nodup_iff, List.map_cons, List.nodup_cons]
      refine ⟨fun member => ?_, valid.distinct⟩
      obtain ⟨node, inside, same⟩ := List.mem_map.mp member
      exact absent node inside same
    · rw [nodes.length_eq, List.length_cons, ← valid.counted, ← keys]
      rfl
  refine ⟨valid', hashMapGet_of_nodes valid valid' ?_ fun node other => ?_⟩
  · rw [nodes.mem_iff]
    exact List.mem_cons_self
  · rw [nodes.mem_iff, List.mem_cons]
    exact or_iff_right fun same => other (congrArg HashNode.key same)

theorem hashMapSet_spec (valid : map.Valid hash) (key value : UInt32) :
    (hashMapSet hash map key value).Valid hash ∧
      hashMapGet hash (hashMapSet hash map key value) = Function.update (hashMapGet hash map) key (some value) := by
  rw [hashMapSet]
  cases found : overwrite key value (map.buckets.getD (hashBucketNum hash map key) []) with
  | some bucket => exact overwrite_spec valid found
  | none =>
    apply hashMapInsert_spec valid
    intro node member same
    subst same
    exact overwrite_eq_none found node (valid.toShaped.mem_nodes.mp member) rfl

end Update

inductive MapOp where
  | set (key value : UInt32)
  | get (key : UInt32)
deriving DecidableEq, Repr

def runHashMap (hash : UInt32 → UInt32) (map : HashMap) : List MapOp → HashMap × List (Option UInt32)
  | [] => (map, [])
  | .set key value :: ops => runHashMap hash (hashMapSet hash map key value) ops
  | .get key :: ops =>
    let (result, values) := runHashMap hash map ops
    (result, hashMapGet hash map key :: values)

def runFiniteMap (f : UInt32 → Option UInt32) : List MapOp → (UInt32 → Option UInt32) × List (Option UInt32)
  | [] => (f, [])
  | .set key value :: ops => runFiniteMap (Function.update f key (some value)) ops
  | .get key :: ops =>
    let (result, values) := runFiniteMap f ops
    (result, f key :: values)

theorem runHashMap_spec {hash : UInt32 → UInt32} {map : HashMap} (valid : map.Valid hash) (ops : List MapOp) :
    (runHashMap hash map ops).1.Valid hash ∧
      (hashMapGet hash (runHashMap hash map ops).1, (runHashMap hash map ops).2) =
        runFiniteMap (hashMapGet hash map) ops := by
  induction ops generalizing map with
  | nil => exact ⟨valid, rfl⟩
  | cons op ops ih =>
    cases op with
    | set key value =>
      obtain ⟨valid', same⟩ := hashMapSet_spec valid key value
      rw [runFiniteMap, ← same]
      exact ih valid'
    | get key =>
      obtain ⟨result, same⟩ := ih valid
      refine ⟨result, ?_⟩
      rw [runFiniteMap, ← same]
      rfl

theorem hashMapNew_valid (hash : UInt32 → UInt32) (numKeys : Nat) : (hashMapNew numKeys).Valid hash := by
  have shaped : (hashMapNew numKeys).Shaped hash :=
    emptyBuckets_shaped 0 (pickBucketCount_powerOfTwo numKeys ⟨0, rfl⟩)
  refine ⟨shaped, ?_, ?_⟩ <;> rw [hashMapNew, emptyBuckets_nodes] <;> simp [emptyBuckets]

theorem hashMapGet_new (hash : UInt32 → UInt32) (numKeys : Nat) : hashMapGet hash (hashMapNew numKeys) = fun _ => none := by
  funext key
  apply Option.eq_none_iff_forall_ne_some.mpr
  intro value found
  have member := (hashMapGet_eq_some (hashMapNew_valid hash numKeys)).mp found
  rw [hashMapNew, emptyBuckets_nodes] at member
  cases member

def latestSet (key : UInt32) (ops : List MapOp) : Option UInt32 :=
  ops.reverse.findSome? fun
    | .set k value => if k = key then some value else none
    | .get _ => none

theorem runFiniteMap_latest (f : UInt32 → Option UInt32) (ops : List MapOp) (key : UInt32) :
    (runFiniteMap f ops).1 key = (latestSet key ops <|> f key) := by
  induction ops generalizing f with
  | nil => rfl
  | cons op ops ih =>
    rw [latestSet, List.reverse_cons, List.findSome?_append]
    cases op with
    | get k => simpa [runFiniteMap, latestSet] using ih f
    | set k value =>
      rw [runFiniteMap, ih]
      by_cases same : k = key
      · subst same
        simp [latestSet]
      · simp [latestSet, same, Ne.symm same]

/-- What lookups return along a run: each one the value of the latest `set` before it. -/
def lookups : List MapOp → List MapOp → List (Option UInt32)
  | _, [] => []
  | past, .set key value :: ops => lookups (past ++ [.set key value]) ops
  | past, .get key :: ops => latestSet key past :: lookups (past ++ [.get key]) ops

theorem runFiniteMap_lookups (past ops : List MapOp) {f : UInt32 → Option UInt32}
    (reached : ∀ key, f key = latestSet key past) : (runFiniteMap f ops).2 = lookups past ops := by
  induction ops generalizing past f with
  | nil => rfl
  | cons op ops ih =>
    cases op with
    | set key value =>
      apply ih
      intro k
      by_cases same : k = key
      · subst same
        simp [latestSet]
      · simp [latestSet, same, Ne.symm same, reached k]
    | get key =>
      have rest : (runFiniteMap f ops).2 = lookups (past ++ [.get key]) ops := by
        apply ih
        intro k
        simpa [latestSet] using reached k
      rw [lookups, ← rest, ← reached key]
      rfl

/-- Every run of the table from a new one: the lookups in it return the latest values, a lookup at
its end would do so too, and the table is valid. -/
theorem hashMap_refines_finiteMap (hash : UInt32 → UInt32) (numKeys : Nat) (ops : List MapOp) :
    (runHashMap hash (hashMapNew numKeys) ops).2 = lookups [] ops ∧
    (∀ key, hashMapGet hash (runHashMap hash (hashMapNew numKeys) ops).1 key = latestSet key ops) ∧
    (runHashMap hash (hashMapNew numKeys) ops).1.Valid hash := by
  obtain ⟨valid, same⟩ := runHashMap_spec (hashMapNew_valid hash numKeys) ops
  rw [hashMapGet_new] at same
  obtain ⟨final, values⟩ := Prod.mk.inj same
  refine ⟨?_, fun key => ?_, valid⟩
  · rw [values]
    exact runFiniteMap_lookups [] ops fun _ => rfl
  · rw [final, runFiniteMap_latest]
    simp

section Load

variable (hash : UInt32 → UInt32)

/-- The nodes that one insertion takes out of their buckets and links again. -/
def nodesRelinked (map : HashMap) (key value : UInt32) : Nat :=
  match overwrite key value (map.buckets.getD (hashBucketNum hash map key) []) with
  | some _ => 0
  | none => if map.numBuckets ≤ map.numKeys ∧ map.numBuckets < maxBuckets then map.nodes.length else 0

def runRelinked (map : HashMap) : List MapOp → Nat
  | [] => 0
  | .set key value :: ops => nodesRelinked hash map key value + runRelinked (hashMapSet hash map key value) ops
  | .get _ :: ops => runRelinked map ops

variable {hash} {map : HashMap} {first moved : Nat}

/-- The table that started with `first` buckets and has linked `moved` nodes anew since. -/
structure HashMap.Loaded (map : HashMap) (first moved : Nat) : Prop where
  load : map.numKeys ≤ map.numBuckets ∨ map.numBuckets = maxBuckets
  bounded : map.numBuckets ≤ maxBuckets
  frugal : map.numBuckets ≤ max first (2 * map.numKeys)
  moves : first + moved = map.numBuckets

theorem double_le_maxBuckets {buckets : Nat} (power : ∃ k, buckets = 2 ^ k) (room : buckets < maxBuckets) :
    2 * buckets ≤ maxBuckets := by
  obtain ⟨k, rfl⟩ := power
  have exponent : k < 30 := (Nat.pow_lt_pow_iff_right (by decide)).mp room
  rw [← Nat.pow_succ']
  exact Nat.pow_le_pow_right (by decide) exponent

theorem pickBucketCount_le (numKeys : Nat) {buckets : Nat} (power : ∃ k, buckets = 2 ^ k) (bound : buckets ≤ maxBuckets) :
    pickBucketCount numKeys buckets ≤ maxBuckets := by
  fun_induction pickBucketCount numKeys buckets with
  | case1 buckets more ih =>
    refine ih ?_ (double_le_maxBuckets power more.2.2)
    obtain ⟨k, rfl⟩ := power
    exact ⟨k + 1, (Nat.pow_succ').symm⟩
  | case2 buckets done => exact bound

theorem hashMapNew_loaded (numKeys : Nat) : (hashMapNew numKeys).Loaded (hashMapPickBucketCount numKeys) 0 :=
  ⟨.inl (Nat.zero_le _), pickBucketCount_le numKeys ⟨0, rfl⟩ (by decide), le_max_left _ _, rfl⟩

theorem foldl_hashMapLink_numBuckets (map : HashMap) (added : List HashNode) :
    (added.foldl (hashMapLink hash) map).numBuckets = map.numBuckets := by
  induction added generalizing map with
  | nil => rfl
  | cons node added ih => exact ih _

theorem hashMapGrow_numBuckets (map : HashMap) : (hashMapGrow hash map).numBuckets = 2 * map.numBuckets := by
  rw [hashMapGrow, ← List.foldl_flatten, foldl_hashMapLink_numBuckets]
  rfl

/-- A full table has as many keys as buckets, so that the nodes which a growth moves are as many as the buckets it adds. -/
theorem HashMap.Loaded.set (valid : map.Valid hash) (loaded : map.Loaded first moved) (key value : UInt32) :
    (hashMapSet hash map key value).Loaded first (moved + nodesRelinked hash map key value) := by
  obtain ⟨load, bounded, frugal, moves⟩ := loaded
  rw [hashMapSet, nodesRelinked]
  cases overwrite key value (map.buckets.getD (hashBucketNum hash map key) []) with
  | some bucket => exact ⟨load, bounded, frugal, moves⟩
  | none =>
    dsimp only
    by_cases full : map.numBuckets ≤ map.numKeys ∧ map.numBuckets < maxBuckets
    · have keys : (hashMapInsert hash map key value).numKeys = map.numKeys + 1 := by
        rw [hashMapInsert, if_pos full]
        exact congrArg (· + 1) (hashMapGrow_spec valid.toShaped).2.1
      have buckets : (hashMapInsert hash map key value).numBuckets = 2 * map.numBuckets := by
        rw [hashMapInsert, if_pos full]
        exact hashMapGrow_numBuckets map
      have even : map.numKeys = map.numBuckets := by omega
      have some : 0 < map.numBuckets := by
        obtain ⟨k, power⟩ := valid.powerOfTwo
        rw [power]
        exact Nat.two_pow_pos k
      have room := double_le_maxBuckets valid.powerOfTwo full.2
      rw [if_pos full, ← valid.counted]
      constructor <;> simp only [keys, buckets] <;> omega
    · have keys : (hashMapInsert hash map key value).numKeys = map.numKeys + 1 := by rw [hashMapInsert, if_neg full]; rfl
      have buckets : (hashMapInsert hash map key value).numBuckets = map.numBuckets := by rw [hashMapInsert, if_neg full]; rfl
      rw [if_neg full]
      constructor <;> simp only [keys, buckets] <;> omega

theorem HashMap.Loaded.run (valid : map.Valid hash) (loaded : map.Loaded first moved) (ops : List MapOp) :
    (runHashMap hash map ops).1.Loaded first (moved + runRelinked hash map ops) := by
  induction ops generalizing map moved with
  | nil => exact loaded
  | cons op ops ih =>
    cases op with
    | set key value =>
      rw [runRelinked, ← Nat.add_assoc]
      exact ih (hashMapSet_spec valid key value).1 (loaded.set valid key value)
    | get key => exact ih valid loaded

def keysSet (ops : List MapOp) : List UInt32 :=
  ops.filterMap fun
    | .set key _ => some key
    | .get _ => none

theorem latestSet_isSome (key : UInt32) (ops : List MapOp) : (latestSet key ops).isSome ↔ key ∈ keysSet ops := by
  simp only [latestSet, List.findSome?_isSome_iff, List.mem_reverse, keysSet, List.mem_filterMap]
  apply exists_congr
  rintro (⟨k, value⟩ | k)
  · by_cases same : k = key <;> simp [same]
  · simp

theorem HashMap.Valid.numKeys_eq (valid : map.Valid hash) {keys : List UInt32}
    (held : ∀ key, (hashMapGet hash map key).isSome ↔ key ∈ keys) : map.numKeys = keys.dedup.length := by
  have same : (map.nodes.map HashNode.key).Perm keys.dedup := by
    rw [List.perm_ext_iff_of_nodup valid.distinct keys.nodup_dedup]
    intro key
    rw [List.mem_dedup, ← held key, Option.isSome_iff_exists]
    simp only [hashMapGet_eq_some valid, List.mem_map]
    constructor
    · rintro ⟨node, member, rfl⟩
      exact ⟨node.value, member⟩
    · rintro ⟨value, member⟩
      exact ⟨_, member, rfl⟩
  rw [valid.counted, ← same.length_eq, List.length_map]

/-- Along every run the table counts the keys that have been set, has a bucket for each of them up to the largest count, and
pays for all its growths together with two links a key. -/
theorem hashMap_load (hash : UInt32 → UInt32) (numKeys : Nat) (ops : List MapOp) :
    let map := (runHashMap hash (hashMapNew numKeys) ops).1
    map.numKeys = (keysSet ops).dedup.length ∧ map.numBuckets ≤ maxBuckets ∧
      (map.numKeys ≤ map.numBuckets ∨ map.numBuckets = maxBuckets) ∧
      map.numBuckets ≤ max (hashMapPickBucketCount numKeys) (2 * map.numKeys) ∧
      runRelinked hash (hashMapNew numKeys) ops ≤ 2 * map.numKeys := by
  intro map
  obtain ⟨valid, same⟩ := runHashMap_spec (hashMapNew_valid hash numKeys) ops
  obtain ⟨load, bounded, frugal, moves⟩ := (hashMapNew_loaded numKeys).run (hashMapNew_valid hash numKeys) ops
  refine ⟨valid.numKeys_eq fun key => ?_, bounded, load, frugal, ?_⟩
  · rw [hashMapGet_new] at same
    rw [(Prod.mk.inj same).1, runFiniteMap_latest]
    simpa using latestSet_isSome key ops
  · change _ ≤ 2 * (runHashMap hash (hashMapNew numKeys) ops).1.numKeys
    omega

end Load

end TcpFuzz
