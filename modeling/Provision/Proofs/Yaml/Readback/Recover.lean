import Provision.Config.Read
import Provision.Config.Write
import Provision.Proofs.Registry
import Provision.Proofs.Yaml.Readback.Tree
import Provision.Proofs.Yaml.Written

/-!
# What is recovered from a tree

No reference is written, so that a decoder needs no budget where it reads what has been written, and
does the same wherever a node stands. A string is recovered as it is, and a collection part by part.

> `Recovers`: a decoder reads something from every tree of a legible outline;
> `recovers_sequence`, `recovers_mapping`, `recovers_registry`: collections, one level deep;
> `decode_render`: what is recovered from the outline of a mapping is decoded from its text.
-/

namespace Provision.Yaml.Decode

variable {α β σ : Type} {x : α} {y : β} {o : Outline} {n : Node}

/-- What is related to something, one by one, has what all such have. -/
theorem forall_mem_of_forall₂ {α β : Type} {R : α → β → Prop} {P : α → Prop} {l : List α}
    {xs : List β} (hP : ∀ {a x}, R a x → P a) (h : List.Forall₂ R l xs) : ∀ a ∈ l, P a := by
  induction h with
  | nil => exact nofun
  | cons hone _ ih => exact List.forall_mem_cons.mpr ⟨hP hone, ih⟩

/-! ## Steps -/

/-- Whether a decoder gives something in every document, and follows no reference. -/
def Gives (d : Decode α) (x : α) : Prop := ∀ env before, d env before = .ok (x, before)

theorem gives_pure (x : α) : Gives (pure x : Decode α) x := fun _ _ => rfl

/-- One step after the other. -/
theorem Gives.bind {d : Decode α} {f : α → Decode β} (hd : Gives d x) (hf : Gives (f x) y) :
    Gives (d >>= f) y := by
  intro env before
  have hsteps : (d >>= f) env before = d env before >>= fun r => f r.1 env r.2 := rfl
  rw [hsteps, hd]
  exact hf env before

theorem Gives.map {d : Decode α} (hd : Gives d x) (f : α → β) : Gives (f <$> d) (f x) := by
  rw [map_eq_pure_bind]
  exact hd.bind (gives_pure _)

theorem Gives.placed {d : Decode α} (hd : Gives d x) (path : Path) (m : Mark) :
    Gives (placed path m d) x := by
  intro env before
  rw [Decode.placed, hd]

theorem Gives.of_placed {d : Decode α} {path : Path} {m : Mark}
    (h : Gives (Decode.placed path m d) x) : Gives d x := by
  intro env before
  have h := h env before
  rw [Decode.placed] at h
  cases hd : d env before with
  | ok r => rwa [hd] at h
  | error e =>
    rw [hd] at h
    exact nomatch h

/-- No tree of an outline is a reference. -/
theorem gives_follow (hn : Shows o n) (path : Path) : Gives (follow ⟨n, path⟩) ⟨n, path⟩ := by
  cases hn <;> exact fun _ _ => rfl

/-- Whether an outline is legible and a decoder reads something from every tree of it. -/
structure Recovers (d : Target → Decode α) (o : Outline) (x : α) : Prop where
  legible : o.Legible
  gives : ∀ ⦃n : Node⦄, Shows o n → ∀ path, Gives (d ⟨n, path⟩) x

/-! ## Strings -/

/-- A scalar with a meaning is legible. -/
theorem legible_of_means {s : Scalar} (h : o.Means s) : o.Legible := by
  obtain ⟨style, text, rfl, htext, -⟩ := h
  exact .scalar nofun htext

/-- A string is recovered as it is. -/
theorem recovers_string (expected s : String) : Recovers (string expected) (.string s) s := by
  refine ⟨legible_of_means (Outline.means_string s), fun n hn path => ?_⟩
  refine (gives_follow hn path).bind ?_
  cases hn
  exact gives_pure s

/-- A known name is the name of a field. -/
theorem recovers_fieldName {known : List String} {name : String} (h : known.contains name = true) :
    Recovers (fieldName known) (.string name) name := by
  have hstring := recovers_string "field identifier" name
  refine ⟨hstring.legible, fun n hn path => ?_⟩
  refine (gives_follow hn path).bind ((hstring.gives hn path).bind ?_)
  rw [if_pos h]
  exact gives_pure name

/-! ## Options -/

/-- What is written where a value is absent is read as null. -/
theorem recovers_option_none (present : Target → Decode α) :
    Recovers (option present) (.plain "null") none := by
  refine ⟨.scalar nofun fun _ => by decide, fun n hn path => ?_⟩
  refine (gives_follow hn path).bind ?_
  cases hn with
  | scalar isKey =>
    have hplain : ∀ isKey, Outline.settle .plain isKey "null".toList = .plain := by decide
    rw [hplain isKey]
    exact fun _ _ => rfl

/-- A string that is written is not read as null. -/
theorem recovers_option_string {present : Target → Decode α} {s : String}
    (h : Recovers present (.string s) x) : Recovers (option present) (.string s) (some x) := by
  refine ⟨h.legible, fun n hn path => ?_⟩
  have hpresent := (h.gives hn path).map some
  refine (gives_follow hn path).bind ?_
  obtain ⟨_, _, heq, -, hmeans⟩ := Outline.means_string s
  obtain ⟨-, rfl, rfl⟩ := Outline.scalar.inj heq
  cases hn with
  | scalar isKey =>
    have hmeans := hmeans isKey
    dsimp only
    split
    · exact hpresent
    next hquoted =>
      have hplain : Outline.settle (Outline.stringStyle s) isKey s.toList = .plain := by
        simpa using hquoted
      have hnull : (s.isEmpty || Scalar.isNull s.toList) = false := by
        by_contra hnull
        rw [hplain] at hmeans
        have hofPlain : Scalar.ofPlain s = .string s := Except.ok.inj hmeans
        have hnull : (s.toList.isEmpty || Scalar.isNull s.toList) = true := by
          simpa [String.isEmpty_iff, or_iff_not_imp_left] using hnull
        rw [Scalar.ofPlain, if_pos hnull] at hofPlain
        exact nomatch hofPlain
      rw [Option.map_none]
      dsimp only
      rw [hnull]
      exact hpresent

/-- A mapping is not null. -/
theorem recovers_option_mapping {present : Target → Decode α} {tag : Option String}
    {es : List (Outline × Outline)} (h : Recovers present (.mapping tag es) x) :
    Recovers (option present) (.mapping tag es) (some x) := by
  refine ⟨h.legible, fun n hn path => ?_⟩
  have hpresent := (h.gives hn path).map some
  refine (gives_follow hn path).bind ?_
  cases hn
  exact hpresent

/-! ## Collections -/

/-- Items are recovered one by one. -/
theorem gives_items {item : Target → Decode α} {os : List Outline} {xs : List α} {ns : List Node}
    (h : List.Forall₂ (Recovers item) os xs) (hns : List.Forall₂ Shows os ns) (path : Path)
    (i : Nat) : Gives (items item path i ns) xs := by
  induction h generalizing ns i with
  | nil =>
    cases hns
    exact gives_pure []
  | cons hone _ ih =>
    cases hns with
    | cons hn hns => exact (hone.gives hn _).bind ((ih hns (i + 1)).bind (gives_pure _))

/-- **A sequence is recovered item by item.** -/
theorem recovers_sequence {item : Nat → Target → Decode α} {depth : Nat} {os : List Outline}
    {xs : List α} (h : List.Forall₂ (Recovers (item depth)) os xs) :
    Recovers (sequence item (depth + 1)) (.sequence none os) xs := by
  refine ⟨.sequence nofun (forall_mem_of_forall₂ Recovers.legible h), fun n hn path => ?_⟩
  refine (gives_follow hn path).bind ?_
  cases hn with
  | sequence hns =>
    exact Gives.placed ((gives_pure depth).bind (gives_items h hns path 0)) path _

/-- Strings are recovered from a sequence of them. -/
theorem recovers_strings (depth : Nat) (l : List String) :
    Recovers (strings (depth + 1)) (.strings l) l := by
  refine recovers_sequence ?_
  rw [List.forall₂_map_left_iff]
  exact List.forall₂_same.mpr fun s _ => recovers_string _ s

/-- Whether an entry is legible, and a decoder of entries goes on from one state to another at every
tree of it. -/
structure RecoversEntry (entry : σ → Target → Target → Decode σ) (s : σ) (e : Outline × Outline)
    (s' : σ) : Prop where
  key : e.1.Legible
  value : e.2.Legible
  gives : ∀ ⦃k v : Node⦄, Shows e.1 k → Shows e.2 v → ∀ path path',
    Gives (entry s ⟨k, path⟩ ⟨v, path'⟩) s'

/-- Whether a decoder of entries goes on from one state to another along entries. -/
inductive RecoversEntries (entry : σ → Target → Target → Decode σ) :
    σ → List (Outline × Outline) → σ → Prop
  | nil {s : σ} : RecoversEntries entry s [] s
  | cons {s s' s'' : σ} {e : Outline × Outline} {es : List (Outline × Outline)}
      (first : RecoversEntry entry s e s') (rest : RecoversEntries entry s' es s'') :
      RecoversEntries entry s (e :: es) s''

/-- Entries are recovered one after another. -/
theorem gives_entries {entry : σ → Target → Target → Decode σ} {s s' : σ}
    {es : List (Outline × Outline)} (h : RecoversEntries entry s es s') {ns : List (Node × Node)}
    (hkeys : List.Forall₂ Shows (es.map Prod.fst) (ns.map Prod.fst))
    (hvalues : List.Forall₂ Shows (es.map Prod.snd) (ns.map Prod.snd)) (path : Path) :
    Gives (entries entry path s ns) s' := by
  induction h generalizing ns with
  | nil =>
    obtain rfl : ns = [] := List.map_eq_nil_iff.mp (List.forall₂_nil_left_iff.mp hkeys)
    exact gives_pure _
  | cons first _ ih =>
    cases ns with
    | nil => exact nomatch hkeys
    | cons n ns =>
      cases hkeys with
      | cons hkey hkeys =>
        cases hvalues with
        | cons hvalue hvalues => exact (first.gives hkey hvalue _ _).bind (ih hkeys hvalues)

/-- Entries that are recovered are legible. -/
theorem RecoversEntries.legible {entry : σ → Target → Target → Decode σ} {s s' : σ}
    {es : List (Outline × Outline)} (h : RecoversEntries entry s es s') :
    ∀ e ∈ es, e.1.Legible ∧ e.2.Legible := by
  induction h with
  | nil => exact nofun
  | cons first _ ih => exact List.forall_mem_cons.mpr ⟨⟨first.key, first.value⟩, ih⟩

/-- A field that has not been given before is set to what is recovered of its value. -/
theorem recoversEntry_field (set : Option β → σ) {known : List String} {name : String}
    {d : Target → Decode β} {entry : σ → Target → Target → Decode σ}
    {step : String → Target → Decode σ} {s : σ} (hname : known.contains name = true)
    (hentry : ∀ k v, entry s k v = fieldName known k >>= fun name => step name v)
    (hstep : ∀ v, step name v = do return set (← once name none (d v))) (h : Recovers d o y) :
    RecoversEntry entry s (.string name, o) (set (some y)) := by
  have hkey := recovers_fieldName hname
  refine ⟨hkey.legible, h.legible, fun k v hk hv path path' => ?_⟩
  rw [hentry]
  refine (hkey.gives hk path).bind ?_
  rw [hstep]
  exact Gives.bind (Gives.map (h.gives hv path') some) (gives_pure _)

/-- **A mapping is recovered entry by entry.** -/
theorem recovers_mapping {expected : String} {start s : σ}
    {entry : Nat → σ → Target → Target → Decode σ} {finish : σ → Decode α} {depth : Nat}
    {es : List (Outline × Outline)} (h : RecoversEntries (entry depth) start es s)
    (hfinish : Gives (finish s) x) :
    Recovers (mapping expected start entry finish (depth + 1)) (.mapping none es) x := by
  refine ⟨.mapping nofun (fun e he => (h.legible e he).1) fun e he => (h.legible e he).2,
    fun n hn path => ?_⟩
  refine (gives_follow hn path).bind ?_
  cases hn with
  | mapping hkeys hvalues =>
    exact Gives.placed ((gives_pure depth).bind
      ((gives_entries h hkeys hvalues path).bind hfinish)) path _

/-- Entries under free names are inserted one after another. -/
theorem recoversEntries_registry {item : Nat → Target → Decode α} {depth : Nat}
    {l : List (String × α)} {es : List (String × Outline)}
    (h : List.Forall₂ (fun e w => e.1 = w.1 ∧ Recovers (item depth) e.2 w.2) es l) :
    ∀ r : Registry α, RecoversEntries (fun r k v => do
        let name ← string "a string" k
        return r.insert name (← item depth v))
      r (es.map fun e => (.string e.1, e.2)) (l.foldl (fun r e => r.insert e.1 e.2) r) := by
  induction h with
  | nil => exact fun _ => .nil
  | @cons e w es l hone _ ih =>
    intro r
    obtain ⟨name, x⟩ := w
    obtain ⟨rfl, hitem⟩ := hone
    have hname := recovers_string "a string" e.1
    refine .cons ⟨hname.legible, hitem.legible, fun k v hk hv path path' => ?_⟩ (ih _)
    exact (hname.gives hk path).bind ((hitem.gives hv path').bind (gives_pure _))

/-- **A mapping from free names is recovered** with its entries in order. -/
theorem recovers_registry {item : Nat → Target → Decode α} {depth : Nat} {r : Registry α}
    {es : List (String × Outline)}
    (h : List.Forall₂ (fun e w => e.1 = w.1 ∧ Recovers (item depth) e.2 w.2) es r.entries) :
    Recovers (registry item (depth + 1)) (.fields es) r := by
  have hentries := recoversEntries_registry h ∅
  have hlist : r.entries.foldl (fun r e => r.insert e.1 e.2) ∅ = r := r.ofList_entries
  rw [hlist] at hentries
  exact recovers_mapping hentries (gives_pure r)

/-! ## Texts -/

/-- **What is recovered from the outline of a mapping is decoded from its text.** -/
theorem decode_render {d : Target → Decode α} {e : Outline × Outline}
    {es : List (Outline × Outline)} (h : Recovers d (.mapping none (e :: es)) x) :
    decode d (Outline.render (.mapping none (e :: es))) = .ok x := by
  obtain ⟨root, size, hread, hshows⟩ := read_render h.legible
  have hgives := h.gives hshows []
  rw [decode, hread]
  dsimp only
  rw [hgives]
  rfl

end Provision.Yaml.Decode
