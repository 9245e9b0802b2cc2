import Mathlib.Logic.Relator
import Provision.Proofs.Yaml.Content
import Provision.Proofs.Yaml.Loose

/-!
# What is read is determined

Decoders count the references that they follow, know where they are and how deep they still may go.
None of this shows in what they read: a node has one content, and one value.

> `Holds.unique`: a node holds one content at most;
> `value_rightUnique`: a node has been read as one value at most.
-/

namespace Provision.Yaml.Decode

variable {env : Surroundings} {n : Node}

/-! ## Contents -/

mutual

/-- **A node holds one content at most**, however deep its collections may be. -/
theorem Holds.unique {depth depth' : Nat} {n : Node} {l l' : Loose} {k k' : Nat}
    (h : Holds env depth n l k) (h' : Holds env depth' n l' k') : l = l' := by
  cases h with
  | node hresolve hheld =>
    cases h' with
    | node hresolve' hheld' =>
      obtain rfl := Option.some.inj (hresolve.symm.trans hresolve')
      exact hheld.unique hheld'
termination_by (sizeOf l, 1)

/-- A node is kept in one way at most, whatever the depth that is allowed. -/
theorem HoldsItself.unique {depth depth' : Nat} {n : Node} {l l' : Loose} {k k' : Nat}
    (h : HoldsItself env depth n l k) (h' : HoldsItself env depth' n l' k') : l = l' := by
  cases h with
  | scalar _ hmeaning hkept =>
    cases h' with
    | scalar _ hmeaning' hkept' =>
      obtain rfl := Except.ok.inj (hmeaning.symm.trans hmeaning')
      exact Option.some.inj (hkept.symm.trans hkept')
  | sequence _ hparts =>
    cases h' with
    | sequence _ hparts' => rw [hparts.unique hparts']
  | mapping _ hparts =>
    cases h' with
    | mapping _ hparts' => rw [hparts.unique hparts']
termination_by (sizeOf l, 0)

theorem HoldsItems.unique {depth depth' : Nat} {nodes : List Node} {items items' : List Loose}
    {k k' : Nat} (h : HoldsItems env depth nodes items k)
    (h' : HoldsItems env depth' nodes items' k') : items = items' := by
  cases h with
  | nil => cases h' with | nil => rfl
  | cons hitem hrest =>
    cases h' with
    | cons hitem' hrest' => rw [hitem.unique hitem', hrest.unique hrest']
termination_by (sizeOf items, 0)

theorem HoldsEntries.unique {depth depth' : Nat} {es : List (Node × Node)}
    {kept kept' : List (Loose × Loose)} {k k' : Nat} (h : HoldsEntries env depth es kept k)
    (h' : HoldsEntries env depth' es kept' k') : kept = kept' := by
  cases h with
  | nil => cases h' with | nil => rfl
  | cons hkey hvalue hrest =>
    cases h' with
    | cons hkey' hvalue' hrest' =>
      rw [hkey.unique hkey', hvalue.unique hvalue', hrest.unique hrest']
termination_by (sizeOf kept, 0)

end

/-! ## Values -/

/-- Whether two readers never read different values of one node. -/
def Agree (env : Surroundings) (read read' : Target → Decode Value) : Prop :=
  ∀ ⦃n v v'⦄, Yields read env n v → Yields read' env n v' → v = v'

section Agree

variable {read read' : Target → Decode Value}

/-- Two readers that agree read the same items. -/
theorem Agree.items (h : Agree env read read') {nodes : List Node} {values values' : List Value}
    (hread : List.Forall₂ (Yields read env) nodes values)
    (hread' : List.Forall₂ (Yields read' env) nodes values') : values = values' := by
  induction hread generalizing values' with
  | nil => exact (List.forall₂_nil_left_iff.mp hread').symm
  | cons hone _ ih =>
    obtain ⟨v', rest', hone', hrest', rfl⟩ := List.forall₂_cons_left_iff.mp hread'
    rw [h hone hone', ih hrest']

/-- Two readers that agree gather the same entries. -/
theorem Agree.gather (h : Agree env read read') {es : List (Node × Node)}
    {start done done' : List (Value × Value)}
    (hread : Gathers (EntryReads (gather read) env) start es done)
    (hread' : Gathers (EntryReads (gather read') env) start es done') : done = done' := by
  induction hread with
  | done => cases hread' with | done => rfl
  | next step rest ih =>
    cases hread' with
    | next step' rest' =>
      obtain ⟨_, _, reads⟩ := step
      obtain ⟨_, _, reads'⟩ := step'
      obtain ⟨key, hkey, reads⟩ := reads_bind reads
      obtain ⟨key', hkey', reads'⟩ := reads_bind reads'
      obtain rfl := h ⟨_, hkey⟩ ⟨_, hkey'⟩
      split at reads
      · exact absurd reads not_reads_complain
      next hnew =>
        rw [hnew] at reads'
        obtain ⟨v, hv, reads⟩ := reads_bind reads
        obtain ⟨v', hv', reads'⟩ := reads_bind reads'
        obtain rfl := h ⟨_, hv⟩ ⟨_, hv'⟩
        obtain rfl := reads_pure reads
        obtain rfl := reads_pure reads'
        exact ih rest'

end Agree

section Step

variable {inner inner' : Option (Target → Decode Value)}
  (hinner : ∀ read read', inner = some read → inner' = some read' → Agree env read read')

include hinner

/-- Two readers that agree inside read the same untagged value. -/
theorem bareValue_unique {t t' : Target} (ht : t.node = t'.node) {v v' : Value}
    (h : (bareValue inner t).Reads env v) (h' : (bareValue inner' t').Reads env v') : v = v' := by
  unfold bareValue at h h'
  rw [← ht] at h'
  split at h
  next hnode =>
    simp only [hnode] at h'
    obtain ⟨s, hs, h⟩ := reads_bind h
    obtain ⟨s', hs', h'⟩ := reads_bind h'
    obtain rfl := Except.ok.inj ((reads_scalarMeaning hs).symm.trans (reads_scalarMeaning hs'))
    split at h
    next hvalue =>
      rw [hvalue] at h'
      rw [reads_pure h, reads_pure h']
    next => exact absurd h not_reads_complain
  next hnode =>
    simp only [hnode] at h'
    obtain ⟨read, hread, h⟩ := reads_bind h
    obtain ⟨read', hread', h'⟩ := reads_bind h'
    obtain ⟨values, hvalues, h⟩ := reads_bind h
    obtain ⟨values', hvalues', h'⟩ := reads_bind h'
    have hagree := hinner read read' (reads_partReader hread) (reads_partReader hread')
    rw [reads_pure h, reads_pure h', hagree.items (reads_items hvalues) (reads_items hvalues')]
  next hnode =>
    simp only [hnode] at h'
    obtain ⟨read, hread, h⟩ := reads_bind h
    obtain ⟨read', hread', h'⟩ := reads_bind h'
    obtain ⟨done, hdone, h⟩ := reads_bind h
    obtain ⟨done', hdone', h'⟩ := reads_bind h'
    have hagree := hinner read read' (reads_partReader hread) (reads_partReader hread')
    rw [reads_pure h, reads_pure h', hagree.gather (reads_entries hdone) (reads_entries hdone')]
  next => exact absurd h not_reads_cut

/-- Agreement on the parts gives agreement on the whole. -/
theorem valueStep_agree : Agree env (valueStep inner) (valueStep inner') := by
  rintro n v v' ⟨path, h⟩ ⟨path', h'⟩
  obtain ⟨t, hfollow, h⟩ := reads_bind h
  obtain ⟨t', hfollow', h'⟩ := reads_bind h'
  have hresolve : env.resolve n = some t.node := reads_follow hfollow
  have ht := Option.some.inj (hresolve.symm.trans (reads_follow hfollow'))
  obtain ⟨w, hw, h⟩ := reads_bind (reads_placed h)
  obtain ⟨w', hw', h'⟩ := reads_bind (reads_placed h')
  rw [reads_pure h, reads_pure h', bareValue_unique hinner ht hw hw', ht]

end Step

/-- How deep a reader may go does not matter to what it reads. The induction is on the depth of one
reader; parts of a collection are read with one less by either. -/
theorem value_agree (depth : Nat) : ∀ depth', Agree env (value depth) (value depth') := by
  induction depth with
  | zero =>
    intro depth'
    cases depth' <;> exact valueStep_agree fun _ _ h => nomatch h
  | succ depth ih =>
    intro depth'
    cases depth' with
    | zero => exact valueStep_agree fun _ _ _ h => nomatch h
    | succ depth' =>
      refine valueStep_agree fun read read' hread hread' => ?_
      obtain rfl := Option.some.inj hread
      obtain rfl := Option.some.inj hread'
      exact ih depth'

/-- **A node has been read as one value at most.** -/
theorem value_rightUnique : Relator.RightUnique (Makes value env) :=
  fun _ _ _ ⟨depth, h⟩ ⟨depth', h'⟩ => value_agree depth depth' h h'

end Provision.Yaml.Decode
