import DataSquare.Proofs.Merkle.Messages

/-!
# Plain roots with a log

The recursion of a root does not look at the hashes that it combines, so it also runs on digests
that carry the messages hashed for them. That run ends in the root and in the list of everything
that was hashed on the way. The message that is hashed last tells by its first byte whether it is
that of no items, of one item or of two parts, and it determines the item or the roots of the parts.
So two roots are the same only over the same items, however many there are and wherever the two
recursions split them, unless a message of the one and a different message of the other have one
digest.
-/
namespace DataSquare.Merkle

/-- A change of hashes that respects parents takes the root to the root over changed leaves. -/
theorem apply_combine {α β : Type} {node : α → α → α} {parent : β → β → β} (change : α → β)
    (respects : ∀ left right, change (node left right) = parent (change left) (change right))
    (empty : α) (leaves : List α) :
    change (combine empty node leaves) = combine (change empty) parent (leaves.map change) := by
  induction leaves using splitInduction with
  | few leaves few =>
    rcases leaves with _ | ⟨leaf, _ | ⟨next, rest⟩⟩
    · rw [combine_nil, List.map_nil, combine_nil]
    · rw [combine_singleton, List.map_singleton, combine_singleton]
    · simp at few
  | several leaves several front back =>
    have image : 1 < (leaves.map change).length := by rwa [List.length_map]
    rw [combine_of_one_lt several, respects, front, back, combine_of_one_lt image,
      List.length_map, List.map_take, List.map_drop]

namespace Binary

/-- A digest with the messages that were hashed for it, in the order of hashing. -/
structure Logged where
  /-- The digest. -/
  digest : Digest
  /-- The messages, of which the digest is that of the last. -/
  messages : List Bytes

namespace Logged

/-- Hashes a message after others. -/
def hash (earlier : List Bytes) (message : Bytes) : Logged :=
  ⟨Sha256.digest message, earlier ++ [message]⟩

/-- Hashes an item. -/
def leaf (item : Bytes) : Logged := hash [] (leafMessage item)

/-- Hashes the parent of two siblings. -/
def node (left right : Logged) : Logged :=
  hash (left.messages ++ right.messages) (nodeMessage left.digest right.digest)

end Logged

/-- The root over items with everything that is hashed for it. -/
def loggedRoot (items : List Bytes) : Logged :=
  combine (Logged.hash [] []) Logged.node (items.map Logged.leaf)

/-- The run with a log ends in the root. -/
@[simp] theorem digest_loggedRoot (items : List Bytes) :
    (loggedRoot items).digest = root items := by
  have parents : ∀ left right : Logged,
      (left.node right).digest = node left.digest right.digest := fun _ _ => rfl
  have digests := apply_combine Logged.digest parents (Logged.hash [] []) (items.map Logged.leaf)
  rw [List.map_map] at digests
  exact digests

section Parts

variable {items : List Bytes} (several : 1 < items.length)
include several

/-- The root over several items is the parent of the roots over their two parts. -/
theorem root_of_one_lt : root items =
    node (root (items.take (splitPoint items.length)))
      (root (items.drop (splitPoint items.length))) := by
  have leaves : 1 < (items.map leaf).length := by rwa [List.length_map]
  rw [root, combine_of_one_lt leaves, List.length_map, ← List.map_take, ← List.map_drop]
  rfl

/-- What is hashed for several items is what is hashed for their parts, and then the parent. -/
theorem messages_loggedRoot_of_one_lt : (loggedRoot items).messages =
    (loggedRoot (items.take (splitPoint items.length))).messages ++
      (loggedRoot (items.drop (splitPoint items.length))).messages ++
        [nodeMessage (root (items.take (splitPoint items.length)))
          (root (items.drop (splitPoint items.length)))] := by
  have leaves : 1 < (items.map Logged.leaf).length := by rwa [List.length_map]
  rw [← digest_loggedRoot, ← digest_loggedRoot, loggedRoot, combine_of_one_lt leaves,
    List.length_map, ← List.map_take, ← List.map_drop]
  rfl

/-- The messages for several items are those for their parts and that of the parent. -/
theorem perm_messages_of_one_lt : (messages items).Perm
    (messages (items.take (splitPoint items.length)) ++
      messages (items.drop (splitPoint items.length)) ++
        [nodeMessage (root (items.take (splitPoint items.length)))
          (root (items.drop (splitPoint items.length)))]) := by
  have leaves : 1 < (items.map leaf).length := by rwa [List.length_map]
  have parts : items.map leafMessage =
      (items.take (splitPoint items.length)).map leafMessage ++
        (items.drop (splitPoint items.length)).map leafMessage := by
    rw [← List.map_append, List.take_append_drop]
  rw [messages_of_ne_nil (List.ne_nil_of_length_pos (by omega)),
    messages_of_ne_nil (take_splitPoint_ne_nil several),
    messages_of_ne_nil (drop_splitPoint_ne_nil several), parts, siblingPairs_of_one_lt leaves,
    List.length_map, ← List.map_take, ← List.map_drop, List.map_cons, List.map_append]
  apply List.perm_iff_count.mpr
  intro message
  simp only [root, List.count_append, List.count_cons, List.count_nil]
  omega

end Parts

/-- What the run with a log hashes are the messages of the root. -/
theorem perm_messages_loggedRoot (items : List Bytes) :
    (loggedRoot items).messages.Perm (messages items) := by
  induction items using splitInduction with
  | few items few =>
    rcases items with _ | ⟨item, _ | ⟨next, rest⟩⟩
    · rw [loggedRoot, List.map_nil, combine_nil]
      exact List.Perm.refl _
    · rw [loggedRoot, List.map_singleton, combine_singleton,
        messages_of_ne_nil (List.cons_ne_nil _ _), siblingPairs]
      exact List.Perm.refl _
    · simp at few
  | several items several front back =>
    rw [messages_loggedRoot_of_one_lt several]
    exact (List.Perm.append_right _ (front.append back)).trans
      (perm_messages_of_one_lt several).symm

/-- The message that is hashed last for a root. -/
inductive LastMessage : List Bytes → Bytes → Prop where
  /-- For no items it is empty. -/
  | empty : LastMessage [] []
  /-- For one item it is that of the item. -/
  | one (item : Bytes) : LastMessage [item] (leafMessage item)
  /-- For several items it is that of the roots over their parts. -/
  | several {items : List Bytes} (several : 1 < items.length) :
    LastMessage items (nodeMessage (root (items.take (splitPoint items.length)))
      (root (items.drop (splitPoint items.length))))

/-- The root is the digest of the message that is hashed last. -/
theorem exists_lastMessage (items : List Bytes) : ∃ message ∈ (loggedRoot items).messages,
    root items = Sha256.digest message ∧ LastMessage items message := by
  rcases items with _ | ⟨item, _ | ⟨next, rest⟩⟩
  · refine ⟨[], ?_, combine_nil, .empty⟩
    rw [loggedRoot, List.map_nil, combine_nil]
    exact List.mem_singleton_self _
  · refine ⟨leafMessage item, ?_, combine_singleton _, .one item⟩
    rw [loggedRoot, List.map_singleton, combine_singleton]
    exact List.mem_singleton_self _
  · have several : 1 < (item :: next :: rest).length := by simp
    refine ⟨_, ?_, root_of_one_lt several, .several several⟩
    rw [messages_loggedRoot_of_one_lt several]
    exact List.mem_append_right _ (List.mem_singleton_self _)

/-- Both lists are longer than one, and the roots over their parts agree. -/
structure PartsAgree (left right : List Bytes) : Prop where
  /-- The first list has two parts. -/
  several : 1 < left.length
  /-- The second list has two parts. -/
  otherSeveral : 1 < right.length
  /-- The roots over the parts in front agree. -/
  front : root (left.take (splitPoint left.length)) = root (right.take (splitPoint right.length))
  /-- The roots over the parts behind agree. -/
  back : root (left.drop (splitPoint left.length)) = root (right.drop (splitPoint right.length))

/-- The message that is hashed last tells none, one and several items apart. -/
theorem LastMessage.eq_or_partsAgree {left right : List Bytes} {message other : Bytes}
    (last : LastMessage left message) (otherLast : LastMessage right other)
    (same : message = other) : left = right ∨ PartsAgree left right := by
  cases last with
  | empty =>
    cases otherLast with
    | empty => exact .inl rfl
    | one item => exact absurd same (List.cons_ne_nil _ _).symm
    | several _ => exact absurd same (List.cons_ne_nil _ _).symm
  | one item =>
    cases otherLast with
    | empty => exact absurd same (List.cons_ne_nil _ _)
    | one other =>
      rw [(List.cons.inj same).2]
      exact .inl rfl
    | several _ => exact absurd (List.cons.inj same).1 (by decide)
  | several several =>
    cases otherLast with
    | empty => exact absurd same (List.cons_ne_nil _ _)
    | one item => exact absurd (List.cons.inj same).1 (by decide)
    | several otherSeveral =>
      have roots := nodeMessage_injective same
      exact .inr ⟨several, otherSeveral, roots.1, roots.2⟩

section Roots

variable {left right : List Bytes}

/-- Lists with one root are equal, or have parts with the same roots, unless messages clash. -/
theorem eq_or_partsAgree_or_clash (same : root left = root right) :
    left = right ∨ PartsAgree left right ∨
      Sha256.Clash (loggedRoot left).messages (loggedRoot right).messages := by
  obtain ⟨message, hashed, value, last⟩ := exists_lastMessage left
  obtain ⟨other, otherHashed, otherValue, otherLast⟩ := exists_lastMessage right
  by_cases equal : message = other
  · exact (last.eq_or_partsAgree otherLast equal).imp_right .inl
  · rw [value, otherValue] at same
    exact .inr (.inr ⟨message, hashed, other, otherHashed, equal, same⟩)

/-- Messages that clash for the parts in front clash for the lists. -/
theorem PartsAgree.clash_front (agree : PartsAgree left right)
    (clash : Sha256.Clash (loggedRoot (left.take (splitPoint left.length))).messages
      (loggedRoot (right.take (splitPoint right.length))).messages) :
    Sha256.Clash (loggedRoot left).messages (loggedRoot right).messages := by
  rw [messages_loggedRoot_of_one_lt agree.several,
    messages_loggedRoot_of_one_lt agree.otherSeveral, List.append_assoc, List.append_assoc]
  exact clash.mono (List.subset_append_left _ _) (List.subset_append_left _ _)

/-- Messages that clash for the parts behind clash for the lists. -/
theorem PartsAgree.clash_back (agree : PartsAgree left right)
    (clash : Sha256.Clash (loggedRoot (left.drop (splitPoint left.length))).messages
      (loggedRoot (right.drop (splitPoint right.length))).messages) :
    Sha256.Clash (loggedRoot left).messages (loggedRoot right).messages := by
  rw [messages_loggedRoot_of_one_lt agree.several,
    messages_loggedRoot_of_one_lt agree.otherSeveral, List.append_assoc, List.append_assoc]
  exact clash.mono
    (List.subset_append_of_subset_right _ (List.subset_append_left _ _))
    (List.subset_append_of_subset_right _ (List.subset_append_left _ _))

/-- Lists with one root are equal unless messages clash. -/
theorem eq_or_clash_of_root_eq (same : root left = root right) :
    left = right ∨ Sha256.Clash (loggedRoot left).messages (loggedRoot right).messages := by
  induction left using splitInduction generalizing right with
  | few left few =>
    rcases eq_or_partsAgree_or_clash same with equal | agree | clash
    · exact .inl equal
    · exact absurd agree.several (by omega)
    · exact .inr clash
  | several left several front back =>
    rcases eq_or_partsAgree_or_clash same with equal | agree | clash
    · exact .inl equal
    · -- Both parts agree, so the lists do, however differently they were split.
      rcases front agree.front with sameFront | clash
      · rcases back agree.back with sameBack | clash
        · left
          rw [← List.take_append_drop (splitPoint left.length) left, sameFront, sameBack,
            List.take_append_drop]
        · exact .inr (agree.clash_back clash)
      · exact .inr (agree.clash_front clash)
    · exact .inr clash

/-- A plain root determines its items, however many there are, when no messages collide. -/
theorem items_eq_of_root_eq (free : Sha256.CollisionFree (messages left ++ messages right))
    (same : root left = root right) : left = right := by
  rcases eq_or_clash_of_root_eq same with equal | clash
  · exact equal
  · have own := (perm_messages_loggedRoot left).subset
    have other := (perm_messages_loggedRoot right).subset
    exact absurd free (clash.mono own other).not_collisionFree

end Roots

/-- Two lists of items have one root exactly when they are equal, be they empty or of different
lengths, unless a message that is hashed for the one and a different message that is hashed for the
other have one digest. -/
theorem root_eq_root_iff (left right : List Bytes) :
    (root left = root right ↔ left = right) ∨
      Sha256.Clash (loggedRoot left).messages (loggedRoot right).messages := by
  by_cases same : root left = root right
  · rcases eq_or_clash_of_root_eq same with equal | clash
    · exact .inl ⟨fun _ => equal, fun _ => same⟩
    · exact .inr clash
  · left
    constructor
    · exact fun roots => absurd roots same
    · rintro rfl
      exact absurd rfl same

end Binary

end DataSquare.Merkle
