import Provision.Proofs.Yaml.Readback.Release
import Provision.Proofs.Yaml.Readback.Source

/-!
# From one place to another

A reader that releases nothing is known by its open blocks, the place where a key may have begun,
the text before it and the tokens behind it. From such a spot on it reads a token, or passes over
what stands before one; what it reads in the end does not depend on where it has been.

> `leads_of_fetch`: a reader goes on behind what one step of it reads;
> `yields_of_atEnd`: what is left at the end of the text.
-/

namespace Provision.Yaml.Scanner

open Source (laid)

variable {s s' t u : Scanner} {all : List Placed}

/-! ## What is read from a state on -/

/-- The tokens of a text, told from some state on: those that are behind it, and those that are
read. The end of the text is none of them but the last one. -/
def Yields (s : Scanner) (all : List Placed) : Prop :=
  (∀ p ∈ all.dropLast, p.token ≠ .streamEnd) ∧ ∃ s', s.dropStale = .ok s' ∧
    ∀ r fuel size, Settled r s' → s'.source.length ≤ fuel → ∃ rest, rest ≠ [] ∧
      scanFrom none size fuel (s'.behind r) = ⟨rest, none⟩ ∧ s'.pending.take r ++ rest = all

/-- Whether whatever is read from one state on is read from another one, that comes before it. -/
def Leads (s t : Scanner) : Prop := ∀ all, t.Yields all → s.Yields all

theorem Leads.refl (s : Scanner) : Leads s s := fun _ h => h

theorem Leads.trans (hst : Leads s t) (htu : Leads t u) : Leads s u := fun all h =>
  hst all (htu all h)

theorem scanFrom_succ (size fuel : Nat) (s : Scanner) : scanFrom none size (fuel + 1) s =
    match s.fetch >>= dropStale with
    | .error f => ⟨[], some f⟩
    | .ok s' =>
      if (s'.pending.take s'.settled).any fun t => t.token == .streamEnd then
        ⟨s'.pending.take s'.settled, none⟩
      else ⟨s'.pending.take s'.settled ++ (scanFrom none size fuel (s'.behind s'.settled)).list,
        (scanFrom none size fuel (s'.behind s'.settled)).fault⟩ := by
  rw [scanFrom]
  cases s.fetch >>= dropStale <;> rfl

/-- Reading depends on what is fetched first. -/
theorem scanFrom_congr (h : s.fetch = t.fetch) (size fuel : Nat) :
    scanFrom none size fuel s = scanFrom none size fuel t := by
  cases fuel with
  | zero => rfl
  | succ fuel => rw [scanFrom_succ, scanFrom_succ, h]

/-- Key places that are given up take nothing of the text with them. -/
theorem source_of_dropStale (h : s.dropStale = .ok t) : t.source = s.source := by
  obtain ⟨outer, -, h⟩ := bind_eq_ok_iff.mp h
  obtain ⟨inner, -, h⟩ := bind_eq_ok_iff.mp h
  rw [← Except.ok.inj h]

/-- **A reader goes on behind a token that it reads.** -/
theorem leads_of_fetch (hs : s.dropStale = .ok s) (ht : s.fetch = .ok t)
    (hshrinks : t.source.length < s.source.length) : Leads s t := by
  rintro all ⟨hclosed, t', ht', hyields⟩
  refine ⟨hclosed, s, hs, fun r fuel size hr hfuel => ?_⟩
  obtain ⟨hfetch, hkeeps⟩ := commutes_fetch hr
  have hst := hkeeps t ht
  obtain ⟨hdrop, hkeeps'⟩ := commutes_dropStale hst.settled
  have hst' := hst.trans (hkeeps' t' ht')
  obtain ⟨fuel, rfl⟩ : ∃ n, fuel = n + 1 := ⟨fuel - 1, by omega⟩
  have hsettled := settled_settled hst'.settled.behind
  obtain ⟨rest, hne, hscan, hall⟩ := hyields (r + (t'.behind r).settled) fuel size
    (hst'.settled.add hsettled) (by rw [source_of_dropStale ht']; omega)
  have htokens : t'.pending.take (r + (t'.behind r).settled) =
      s.pending.take r ++ (t'.behind r).pending.take (t'.behind r).settled := by
    rw [List.take_add, hst'.tokens]
    rfl
  rw [htokens, List.append_assoc] at hall
  refine ⟨_, List.append_ne_nil_of_right_ne_nil _ hne, ?_, hall⟩
  have hend : ((t'.behind r).pending.take (t'.behind r).settled).any
      (fun t => t.token == .streamEnd) = false := by
    rw [List.any_eq_false]
    intro p hp
    rw [beq_iff_eq]
    refine hclosed p ?_
    rw [← hall, ← List.append_assoc, List.dropLast_append_of_ne_nil hne]
    simp [hp]
  rw [scanFrom_succ, hfetch, ht]
  show (match (t.behind r).dropStale with | .error f => _ | .ok s' => _) = _
  rw [hdrop, ht']
  show (if _ then _ else _) = _
  rw [hend, if_neg Bool.false_ne_true, behind_behind, hscan]

/-- Two states from which the same is fetched lead to the same. -/
theorem leads_of_fetch_eq (hs : s.dropStale = .ok s') (hu : u.dropStale = .ok u)
    (hfetch : s'.fetch = u.fetch) (hlength : u.source.length ≤ s'.source.length)
    (hkeeps : ∀ r, Settled r s' → Keeps r s' u) : Leads s u := by
  rintro all ⟨hclosed, u', hu', hyields⟩
  obtain rfl := Except.ok.inj (hu.symm.trans hu')
  refine ⟨hclosed, s', hs, fun r fuel size hr hfuel => ?_⟩
  have hsu := hkeeps r hr
  obtain ⟨rest, hne, hscan, hall⟩ := hyields r fuel size hsu.settled (by omega)
  have hbehind : (s'.behind r).fetch = (u.behind r).fetch := by
    rw [(commutes_fetch hr).1, (commutes_fetch hsu.settled).1, hfetch]
  exact ⟨rest, hne, (scanFrom_congr hbehind size fuel).trans hscan, by rw [← hsu.tokens, hall]⟩

/-- The end of the text is the last that is read. -/
theorem yields_of_atEnd (more : List Placed) {e : Placed} (hs : s.dropStale = .ok s)
    (ht : s.fetch = .ok t) (ht' : t.dropStale = .ok t) (hkeys : t.outerKey = none ∧ t.flowKeys = [])
    (hpending : t.pending = s.pending ++ more ++ [e]) (he : e.token = .streamEnd)
    (hmore : ∀ p ∈ s.pending ++ more, p.token ≠ .streamEnd) (hsource : s.source ≠ []) :
    Yields s (s.pending ++ more ++ [e]) := by
  refine ⟨by rwa [List.dropLast_concat], s, hs, fun r fuel size hr hfuel => ?_⟩
  obtain ⟨hfetch, -⟩ := commutes_fetch hr
  obtain ⟨fuel, rfl⟩ : ∃ n, fuel = n + 1 := by
    have := List.length_pos_of_ne_nil hsource
    exact ⟨fuel - 1, by omega⟩
  have hst := (commutes_fetch hr).2 t ht
  have hsettled : (t.behind r).settled = (t.behind r).pending.length := by
    rw [settled]
    have : ((t.behind r).outerKey :: (t.behind r).flowKeys).filterMap id = [] := by
      show (t.outerKey :: t.flowKeys).filterMap id = []
      rw [hkeys.1, hkeys.2]
      rfl
    rw [this]
    rfl
  have htokens : (t.behind r).pending.take (t.behind r).settled =
      (s.pending ++ more).drop r ++ [e] := by
    rw [hsettled, List.take_length]
    show t.pending.drop r = _
    rw [hpending, List.drop_append_of_le_length]
    exact Nat.le_trans hr.held (by simp)
  refine ⟨(s.pending ++ more).drop r ++ [e], by simp, ?_, ?_⟩
  · rw [scanFrom_succ, hfetch, ht]
    show (match (t.behind r).dropStale with | .error f => _ | .ok s' => _) = _
    rw [(commutes_dropStale hst.settled).1, ht']
    show (if _ then _ else _) = _
    rw [htokens, if_pos (by simp [he])]
  · rw [List.drop_append_of_le_length hr.held, ← List.append_assoc, ← List.append_assoc,
      List.take_append_drop]

end Provision.Yaml.Scanner
