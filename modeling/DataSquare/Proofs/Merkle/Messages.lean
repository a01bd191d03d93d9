import DataSquare.Proofs.Merkle.Binding

/-!
# Messages of Merkle trees

The messages that are hashed for a root are those of its leaves and one for each pair of siblings.
The first byte of a message tells a leaf from a parent, and what follows determines the item or
the pair. So parents determine their pairs and none is a leaf, unless messages collide, and a
namespaced root determines as many leaves as are known to stand below it.
-/
namespace DataSquare.Merkle

open Sha256 (CollisionFree)

namespace NamespacedHash

/-- The message that is hashed for a leaf. -/
def leafMessage (ns : Namespace) (data : Bytes) : Bytes := 0 :: ns.bytes ++ data

/-- The message that is hashed for the parent of two siblings. -/
def nodeMessage (left right : NamespacedHash) : Bytes := 1 :: left.bytes ++ right.bytes

/-- A node takes 90 bytes. -/
@[simp] theorem length_bytes (hash : NamespacedHash) : hash.bytes.length = 90 := by
  simp [bytes, hash.digest.length_eq]

/-- The bytes of a node determine it. -/
theorem bytes_injective {left right : NamespacedHash} (same : left.bytes = right.bytes) :
    left = right := by
  obtain ⟨fronts, digests⟩ := List.append_inj same (by simp)
  obtain ⟨mins, maxs⟩ := List.append_inj fronts (by simp)
  cases left
  cases right
  cases Namespace.ext mins
  cases Namespace.ext maxs
  cases FixedBytes.ext digests
  rfl

/-- The message of a parent determines the siblings. -/
theorem nodeMessage_injective {left right otherLeft otherRight : NamespacedHash}
    (same : nodeMessage left right = nodeMessage otherLeft otherRight) :
    left = otherLeft ∧ right = otherRight := by
  obtain ⟨_, tails⟩ := List.cons.inj same
  obtain ⟨lefts, rights⟩ := List.append_inj tails (by simp)
  exact ⟨bytes_injective lefts, bytes_injective rights⟩

/-- The message of a leaf determines its namespace and data. -/
theorem leafMessage_injective {ns other : Namespace} {data otherData : Bytes}
    (same : leafMessage ns data = leafMessage other otherData) : ns = other ∧ data = otherData := by
  obtain ⟨_, tails⟩ := List.cons.inj same
  obtain ⟨namespaces, datas⟩ := List.append_inj tails (by simp)
  exact ⟨Namespace.ext namespaces, datas⟩

/-- A leaf determines its namespace and data when its message does not collide. -/
theorem leaf_injective {messages : List Bytes} (free : CollisionFree messages)
    {ns other : Namespace} {data otherData : Bytes} (hashed : leafMessage ns data ∈ messages)
    (otherHashed : leafMessage other otherData ∈ messages)
    (same : leaf ns data = leaf other otherData) : ns = other ∧ data = otherData :=
  leafMessage_injective (free _ hashed _ otherHashed (congrArg digest same))

end NamespacedHash

/-- The messages that are hashed for the parents in a namespaced tree. -/
def namespacedMessages (leaves : List NamespacedHash) : List Bytes :=
  (siblingPairs NamespacedHash.empty NamespacedHash.node leaves).map fun pair =>
    NamespacedHash.nodeMessage pair.1 pair.2

/-- Parents in namespaced trees determine their pairs when their messages do not collide. -/
theorem parentsDistinct_of_collisionFree {pairs : List (NamespacedHash × NamespacedHash)}
    (free : CollisionFree (pairs.map fun pair => NamespacedHash.nodeMessage pair.1 pair.2)) :
    ParentsDistinct NamespacedHash.node pairs := by
  intro left memLeft right memRight same
  have messages := free _ (List.mem_map_of_mem memLeft) _ (List.mem_map_of_mem memRight)
    (congrArg NamespacedHash.digest same)
  obtain ⟨lefts, rights⟩ := NamespacedHash.nodeMessage_injective messages
  exact Prod.ext lefts rights

/-- No parent in namespaced trees is the hash of a leaf when their messages do not collide. -/
theorem parentsApart_of_collisionFree {hashed : List Bytes}
    {pairs : List (NamespacedHash × NamespacedHash)} {leaves : List NamespacedHash}
    (free : CollisionFree (hashed ++
      pairs.map fun pair => NamespacedHash.nodeMessage pair.1 pair.2))
    (stands : ∀ hash ∈ leaves, ∃ ns data, hash = NamespacedHash.leaf ns data ∧
      NamespacedHash.leafMessage ns data ∈ hashed) :
    ParentsApart NamespacedHash.node pairs leaves := by
  -- The message of a parent starts with another byte than that of a leaf.
  intro pair memPair hash memHash parent
  obtain ⟨ns, data, rfl, message⟩ := stands hash memHash
  have inner : NamespacedHash.nodeMessage pair.1 pair.2 ∈
      pairs.map fun pair => NamespacedHash.nodeMessage pair.1 pair.2 :=
    List.mem_map_of_mem memPair
  have confused := free _ (List.mem_append_right _ inner) _ (List.mem_append_left _ message)
    (congrArg NamespacedHash.digest parent)
  exact absurd (List.cons.inj confused).1 (by decide)

/-- A namespaced root determines the leaves below it, given how many there are. -/
theorem leaves_eq_of_namespacedRoot_eq {left right : List NamespacedHash}
    (length : left.length = right.length)
    (free : CollisionFree (namespacedMessages left ++ namespacedMessages right))
    (same : namespacedRoot left = namespacedRoot right) : left = right := by
  apply combine_injective length _ same
  apply parentsDistinct_of_collisionFree
  rw [List.map_append]
  exact free

/-- A namespaced root determines the leaves below it, however many there are, when the messages of
the leaves do not collide either. -/
theorem leaves_eq_of_namespacedRoot_eq_of_hashed {hashed : List Bytes}
    {left right : List NamespacedHash} (someLeft : left ≠ []) (someRight : right ≠ [])
    (free : CollisionFree (hashed ++ (namespacedMessages left ++ namespacedMessages right)))
    (stands : ∀ hash ∈ left ++ right, ∃ ns data, hash = NamespacedHash.leaf ns data ∧
      NamespacedHash.leafMessage ns data ∈ hashed)
    (same : namespacedRoot left = namespacedRoot right) : left = right := by
  have inner := free.mono (List.subset_append_right hashed _)
  have messages : namespacedMessages left ++ namespacedMessages right =
      (siblingPairs NamespacedHash.empty NamespacedHash.node left ++
        siblingPairs NamespacedHash.empty NamespacedHash.node right).map fun pair =>
          NamespacedHash.nodeMessage pair.1 pair.2 :=
    List.map_append.symm
  exact leaves_eq_of_namespacedRoot_eq (length_eq_of_combine_eq someLeft someRight
    (parentsDistinct_of_collisionFree (messages ▸ inner))
    (parentsApart_of_collisionFree (messages ▸ free) stands) same) inner same

namespace Binary

/-- The message that is hashed for an item. -/
def leafMessage (item : Bytes) : Bytes := 0 :: item

/-- The message that is hashed for the parent of two siblings. -/
def nodeMessage (left right : Digest) : Bytes := 1 :: left.bytes ++ right.bytes

/-- The messages that are hashed for a plain root. The root of no items is the digest of the
empty message. -/
def messages (items : List Bytes) : List Bytes :=
  if items.isEmpty then [[]]
  else items.map leafMessage ++
    (siblingPairs emptyRoot node (items.map leaf)).map fun pair => nodeMessage pair.1 pair.2

/-- The messages for a root over items are those of the items and those of the parents. -/
theorem messages_of_ne_nil {items : List Bytes} (nonempty : items ≠ []) :
    messages items = items.map leafMessage ++
      (siblingPairs emptyRoot node (items.map leaf)).map fun pair => nodeMessage pair.1 pair.2 := by
  rw [messages, if_neg (by simpa using nonempty)]

/-- The message of a parent determines the siblings. -/
theorem nodeMessage_injective {left right otherLeft otherRight : Digest}
    (same : nodeMessage left right = nodeMessage otherLeft otherRight) :
    left = otherLeft ∧ right = otherRight := by
  obtain ⟨_, tails⟩ := List.cons.inj same
  obtain ⟨lefts, rights⟩ := List.append_inj tails (by rw [left.length_eq, otherLeft.length_eq])
  exact ⟨FixedBytes.ext lefts, FixedBytes.ext rights⟩

/-- The message of an item is hashed. -/
theorem leafMessage_mem {items : List Bytes} {item : Bytes} (member : item ∈ items) :
    leafMessage item ∈ messages items := by
  rw [messages_of_ne_nil (List.ne_nil_of_mem member)]
  exact List.mem_append_left _ (List.mem_map_of_mem member)

/-- Parents in plain trees determine their pairs when their messages do not collide. -/
theorem parentsDistinct_of_collisionFree {pairs : List (Digest × Digest)}
    (free : CollisionFree (pairs.map fun pair => nodeMessage pair.1 pair.2)) :
    ParentsDistinct node pairs := by
  intro left memLeft right memRight same
  have messages := free _ (List.mem_map_of_mem memLeft) _ (List.mem_map_of_mem memRight) same
  obtain ⟨lefts, rights⟩ := nodeMessage_injective messages
  exact Prod.ext lefts rights

/-- No parent in plain trees is the hash of an item when their messages do not collide. -/
theorem parentsApart_of_collisionFree {hashed : List Bytes} {pairs : List (Digest × Digest)}
    {leaves : List Digest}
    (free : CollisionFree (hashed ++ pairs.map fun pair => nodeMessage pair.1 pair.2))
    (stands : ∀ hash ∈ leaves, ∃ item, hash = leaf item ∧ leafMessage item ∈ hashed) :
    ParentsApart node pairs leaves := by
  -- The message of a parent starts with another byte than that of an item.
  intro pair memPair hash memHash parent
  obtain ⟨item, rfl, message⟩ := stands hash memHash
  have inner : nodeMessage pair.1 pair.2 ∈ pairs.map fun pair => nodeMessage pair.1 pair.2 :=
    List.mem_map_of_mem (f := fun pair : Digest × Digest => nodeMessage pair.1 pair.2) memPair
  have confused := free _ (List.mem_append_right _ inner) _ (List.mem_append_left _ message) parent
  exact absurd (List.cons.inj confused).1 (by decide)

end Binary

end DataSquare.Merkle
