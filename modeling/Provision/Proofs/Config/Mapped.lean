import Provision.Proofs.Registry
import Provision.Proofs.Yaml.Decode

/-!
# What a mapping from free names says

Names of targets, recipes, defaults and arguments are free. What such a mapping says is read
entry by entry and written under the names, one after another: a name that comes again takes the
value of the one before it.

> `mapped_of_makes`: what has been decoded is what the mapping says;
> `Mapped.kept_iff`: all entries are kept exactly if no name is written twice.
-/

namespace Provision

open Yaml (Decode Node Surroundings)
open Yaml.Decode

variable {env : Surroundings} {n : Node}

/-! ## Mappings from free names -/

section Mapped

variable {α : Type} {Item Item' : Node → α → Prop} {r : Registry α}

/-- Whether a registry is what a mapping from free names says: what is read of each entry is
written under its name, one entry after another. -/
def Mapped (Item : Node → α → Prop) (env : Surroundings) (n : Node) (r : Registry α) : Prop :=
  ∃ said written, env.named? n = some said ∧
    List.Forall₂ (fun s w => s.1 = w.1 ∧ Item s.2 w.2) said written ∧ r = Registry.ofList written

/-- What holds of every item of a mapping may be weakened item by item. -/
theorem Mapped.imp (h : Mapped Item env n r) (hItem : ∀ {n x}, Item n x → Item' n x) :
    Mapped Item' env n r := by
  obtain ⟨said, written, hsaid, hread, hr⟩ := h
  exact ⟨said, written, hsaid, hread.imp fun _ _ hx => ⟨hx.1, hItem hx.2⟩, hr⟩

/-- Two lists that agree entry by entry have the same names. -/
theorem names_eq_of_forall₂ {said : List (String × Node)} {written : List (String × α)}
    (h : List.Forall₂ (fun s w => s.1 = w.1 ∧ Item s.2 w.2) said written) :
    said.map Prod.fst = written.map Prod.fst := by
  induction h with
  | nil => rfl
  | cons hone _ ih => rw [List.map_cons, List.map_cons, hone.1, ih]

/-- Every entry that is spelt out has been read to something. -/
theorem Mapped.forall_said (h : Mapped Item env n r) {said : List (String × Node)}
    (hsaid : env.named? n = some said) : ∀ s ∈ said, ∃ x, Item s.2 x := by
  obtain ⟨said', written, hsaid', hread, -⟩ := h
  obtain rfl := Option.some.inj (hsaid.symm.trans hsaid')
  clear hsaid hsaid'
  induction hread with
  | nil => simp
  | cons hone _ ih => exact List.forall_mem_cons.mpr ⟨⟨_, hone.2⟩, ih⟩

/-- Each name has the place where it is written first. -/
theorem Mapped.keys_eq (h : Mapped Item env n r) {said : List (String × Node)}
    (hsaid : env.named? n = some said) : r.keys = (said.map Prod.fst).eraseDups := by
  obtain ⟨said', written, hsaid', hread, rfl⟩ := h
  obtain rfl := Option.some.inj (hsaid.symm.trans hsaid')
  rw [Registry.keys_ofList, names_eq_of_forall₂ hread]

/-- Each name has the value that is written last. -/
theorem Mapped.of_get? (h : Mapped Item env n r) {said : List (String × Node)}
    (hsaid : env.named? n = some said) {name : String} {x : α} (hget : r.get? name = some x) :
    ∃ former m later, said = former ++ (name, m) :: later ∧ name ∉ later.map Prod.fst ∧
      Item m x := by
  obtain ⟨said', written, hsaid', hread, rfl⟩ := h
  obtain rfl := Option.some.inj (hsaid.symm.trans hsaid')
  obtain ⟨before, after, rfl, hlast⟩ := (Registry.get?_ofList_eq_some_iff _ _ _).mp hget
  have hrest := List.forall₂_drop before.length hread
  rw [List.drop_left] at hrest
  obtain ⟨s, later, hone, hlater, hdrop⟩ := List.forall₂_cons_right_iff.mp hrest
  obtain ⟨rfl, hitem⟩ := hone
  refine ⟨said.take before.length, s.2, later, ?_, by rwa [names_eq_of_forall₂ hlater], hitem⟩
  rw [← hdrop, List.take_append_drop]

/-- Whether a registry has all entries of a mapping, in order and with their own values. -/
def Kept (Item : Node → α → Prop) (said : List (String × Node)) (r : Registry α) : Prop :=
  List.Forall₂ (fun s e => s.1 = e.1 ∧ Item s.2 e.2) said r.entries

/-- **Of a mapping from free names, all entries are kept exactly if no name is written twice.** -/
theorem Mapped.kept_iff (h : Mapped Item env n r) {said : List (String × Node)}
    (hsaid : env.named? n = some said) : Kept Item said r ↔ (said.map Prod.fst).Nodup := by
  constructor
  · intro hkept
    rw [names_eq_of_forall₂ hkept]
    exact r.nodup
  · intro hnodup
    obtain ⟨said', written, hsaid', hread, rfl⟩ := h
    obtain rfl := Option.some.inj (hsaid.symm.trans hsaid')
    rwa [Kept, Registry.entries_ofList_of_nodup (names_eq_of_forall₂ hread ▸ hnodup)]

/-- A registry that is read from a node maps its entries. -/
theorem Yaml.Decode.mapped_of_makes {item : Nat → Target → Decode α}
    (h : Makes (registry item) env n r) : Mapped (Makes item env) env n r := by
  obtain ⟨depth, path, h⟩ := h
  obtain ⟨es, inner, s, hes, -, hs, hr⟩ := reads_mapping h
  obtain rfl := reads_pure hr
  suffices hwritten : ∃ (said : List (String × Node)) (written : List (String × α)),
      (es.mapM fun e => (env.text? e.1).map fun name => (name, e.2)) = some said ∧
      List.Forall₂ (fun s w => s.1 = w.1 ∧ Makes item env s.2 w.2) said written ∧
      r = written.foldl (fun r e => r.insert e.1 e.2) ∅ by
    obtain ⟨said, written, hsaid, hread, hr⟩ := hwritten
    exact ⟨said, written, by rw [Surroundings.named?, hes]; exact hsaid, hread, hr⟩
  -- the entries are written into whatever has been written before
  clear hes h hr
  generalize (∅ : Registry α) = start at hs ⊢
  induction hs with
  | done => exact ⟨[], [], rfl, .nil, rfl⟩
  | next step rest ih =>
    obtain ⟨_, _, reads⟩ := step
    obtain ⟨name, hname, reads⟩ := reads_bind reads
    obtain ⟨x, hx, reads⟩ := reads_bind reads
    obtain rfl := reads_pure reads
    obtain ⟨said, written, hsaid, hread, hr⟩ := ih
    refine ⟨(name, _) :: said, (name, x) :: written, ?_, .cons ⟨rfl, inner, _, hx⟩ hread, hr⟩
    rw [List.mapM_cons, reads_string hname, hsaid]
    rfl

end Mapped

/-! ## Strings -/

/-- Whether a node says a string: a scalar with its text. -/
def StringSaidBy (env : Surroundings) (n : Node) (s : String) : Prop := env.text? n = some s

/-- A string that is read is the text of its node. -/
theorem stringSaidBy_of_makes {expected s : String}
    (h : Makes (fun _ => string expected) env n s) : StringSaidBy env n s := by
  obtain ⟨_, _, h⟩ := h
  exact reads_string h

/-- Whether strings are those of a sequence. -/
def StringsSaidBy (env : Surroundings) (n : Node) (l : List String) : Prop :=
  ∃ nodes, env.items? n = some nodes ∧ List.Forall₂ (StringSaidBy env) nodes l

/-- Strings that are read are the texts of the items, one by one. -/
theorem stringsSaidBy_of_makes {l : List String} (h : Makes strings env n l) :
    StringsSaidBy env n l := by
  obtain ⟨depth, path, h⟩ := h
  obtain ⟨nodes, inner, hnodes, -, hread⟩ := reads_sequence h
  exact ⟨nodes, hnodes, hread.imp fun _ _ h => stringSaidBy_of_makes ⟨inner, h⟩⟩

end Provision
