import Provision.Proofs.Result
import Provision.Yaml.Token.Scan

/-!
# Released tokens make no difference

Tokens are held back until it is settled whether a key begins before them, and released then. What
is read next does not depend on how many of the settled tokens have been released: all that is
added later goes behind them. So a reader may be thought of that releases nothing.

> `commutes_take`: reading a token commutes with releasing;
> `settled_settled`: what a reader releases is settled.
-/

namespace Provision.Yaml.Scanner

variable {r : Nat} {s t : Scanner}

/-- The reader after some more of its tokens have been released. -/
def behind (r : Nat) (s : Scanner) : Scanner :=
  { s with pending := s.pending.drop r, released := s.released + r }

/-- Whether so many tokens can be released: they are there, and no key begins before one of them. -/
structure Settled (r : Nat) (s : Scanner) : Prop where
  held : r ≤ s.pending.length
  outer : ∀ k ∈ s.outerKey, s.released + r ≤ k.ordinal
  flow : ∀ place ∈ s.flowKeys, ∀ k ∈ place, s.released + r ≤ k.ordinal

/-- Whether so many tokens stay what they are, and can still be released. -/
structure Keeps (r : Nat) (s t : Scanner) : Prop where
  settled : Settled r t
  released : t.released = s.released
  tokens : t.pending.take r = s.pending.take r

theorem Keeps.refl (h : Settled r s) : Keeps r s s := ⟨h, rfl, rfl⟩

theorem Keeps.trans {u : Scanner} (hst : Keeps r s t) (htu : Keeps r t u) : Keeps r s u :=
  ⟨htu.settled, htu.released.trans hst.released, htu.tokens.trans hst.tokens⟩

/-- The open key places are all that counts of the key places. -/
theorem Settled.keyPlace (h : Settled r s) : ∀ k ∈ s.keyPlace, s.released + r ≤ k.ordinal := by
  intro k hk
  rw [Scanner.keyPlace] at hk
  split at hk
  · exact h.outer k hk
  next heq => exact h.flow _ (by rw [heq]; exact List.mem_cons_self) k hk

/-! ## Steps that commute with releasing -/

/-- Whether a step does the same, however many tokens have been released before it. -/
def Commutes (f : Scanner → Except Fault Scanner) : Prop :=
  ∀ ⦃r : Nat⦄ ⦃s : Scanner⦄, Settled r s →
    f (s.behind r) = (f s).map (behind r) ∧ ∀ t, f s = .ok t → Keeps r s t

/-- The same for a step that does not fail. -/
def CommutesPurely (f : Scanner → Scanner) : Prop :=
  ∀ ⦃r : Nat⦄ ⦃s : Scanner⦄, Settled r s → f (s.behind r) = (f s).behind r ∧ Keeps r s (f s)

theorem CommutesPurely.ok {f : Scanner → Scanner} (hf : CommutesPurely f) :
    Commutes fun s => .ok (f s) := by
  intro r s h
  obtain ⟨heq, hkeeps⟩ := hf h
  refine ⟨congrArg Except.ok heq, ?_⟩
  rintro _ ⟨⟩
  exact hkeeps

/-- One step after another. -/
theorem Commutes.bind {f g : Scanner → Except Fault Scanner} (hf : Commutes f) (hg : Commutes g) :
    Commutes fun s => f s >>= g := by
  intro r s h
  obtain ⟨heq, hkeeps⟩ := hf h
  dsimp only
  rw [heq]
  cases hfs : f s with
  | error e => exact ⟨rfl, fun _ h => nomatch h⟩
  | ok t =>
    have hst := hkeeps t hfs
    obtain ⟨heq', hkeeps'⟩ := hg hst.settled
    exact ⟨heq', fun u hu => hst.trans (hkeeps' u hu)⟩

/-- One such step after another. -/
theorem CommutesPurely.comp {f g : Scanner → Scanner} (hf : CommutesPurely f)
    (hg : CommutesPurely g) : CommutesPurely fun s => g (f s) := by
  intro r s h
  obtain ⟨heq, hkeeps⟩ := hf h
  obtain ⟨heq', hkeeps'⟩ := hg hkeeps.settled
  exact ⟨(congrArg g heq).trans heq', hkeeps.trans hkeeps'⟩

theorem CommutesPurely.bind {f : Scanner → Scanner} {g : Scanner → Except Fault Scanner}
    (hf : CommutesPurely f) (hg : Commutes g) : Commutes fun s => g (f s) :=
  hf.ok.bind hg

/-- A choice that does not look at the tokens. -/
theorem Commutes.ite {f g : Scanner → Except Fault Scanner} (b : Scanner → Bool)
    (hb : ∀ r s, b (behind r s) = b s) (hf : Commutes f) (hg : Commutes g) :
    Commutes fun s => if b s then f s else g s := by
  intro r s h
  dsimp only
  rw [hb]
  cases b s with
  | false => exact hg h
  | true => exact hf h

/-- A step that depends on something else than the tokens. -/
theorem Commutes.param {α : Type} {f : α → Scanner → Except Fault Scanner} (g : Scanner → α)
    (hg : ∀ r s, g (behind r s) = g s) (hf : ∀ x, Commutes (f x)) :
    Commutes fun s => f (g s) s := by
  intro r s h
  dsimp only
  rw [hg]
  exact hf (g s) h

/-- A fault that does not depend on the tokens. -/
theorem commutes_error (e : Scanner → Fault) (he : ∀ r s, e (behind r s) = e s) :
    Commutes fun s => .error (e s) := by
  intro r s _
  exact ⟨congrArg Except.error (he r s), fun _ h => nomatch h⟩

/-- What is read of the text does not depend on the tokens. -/
theorem commutes_read {α : Type} (read : Scanner → Except Fault α) (f : α → Scanner → Scanner)
    (hread : ∀ r s, read (behind r s) = read s) (hf : ∀ x, CommutesPurely (f x)) :
    Commutes fun s => read s >>= fun x => .ok (f x s) := by
  intro r s h
  dsimp only
  rw [hread]
  cases read s with
  | error e => exact ⟨rfl, fun _ h => nomatch h⟩
  | ok x => exact (hf x).ok h

/-! ## The pieces of the steps -/

/-- What touches neither the tokens nor the key places. -/
theorem commutesPurely_of_fields (f : Scanner → Scanner)
    (hf : ∀ r s, f (behind r s) = behind r (f s)) (hpending : ∀ s, (f s).pending = s.pending)
    (hreleased : ∀ s, (f s).released = s.released) (houter : ∀ s, (f s).outerKey = s.outerKey)
    (hflow : ∀ s, ∀ place ∈ (f s).flowKeys, place ∈ s.flowKeys ∨ place = none) :
    CommutesPurely f := by
  intro r s h
  refine ⟨hf r s, ⟨?_, ?_, ?_⟩, hreleased s, by rw [hpending]⟩
  · rw [hpending]
    exact h.held
  · rw [houter, hreleased]
    exact h.outer
  · rw [hreleased]
    intro place hplace k hk
    rcases hflow s place hplace with hplace | rfl
    · exact h.flow place hplace k hk
    · exact nomatch hk

/-- A token at the end comes behind those that are settled. -/
theorem commutesPurely_push (t : Scanner → Placed) (ht : ∀ r s, t (behind r s) = t s) :
    CommutesPurely fun s => s.push (t s) := by
  intro r s h
  refine ⟨?_, ⟨?_, h.outer, h.flow⟩, rfl, List.take_append_of_le_length h.held⟩
  · have hdrop : (s.pending ++ [t s]).drop r = s.pending.drop r ++ [t s] :=
      List.drop_append_of_le_length h.held
    dsimp only
    rw [ht, push, push, behind, behind, hdrop]
  · exact Nat.le_trans h.held (by simp [push])

/-- A token that is inserted where a key begins comes behind those that are settled. -/
theorem pushAt_behind {n : Nat} (h : Settled r s) (hn : s.released + r ≤ n) (t : Placed) :
    (s.behind r).pushAt n t = (s.pushAt n t).behind r ∧ Keeps r s (s.pushAt n t) := by
  have hheld := h.held
  have hlength : r ≤ (s.pending.take (n - s.released)).length := by
    rw [List.length_take]
    omega
  refine ⟨?_, ⟨?_, h.outer, h.flow⟩, rfl, ?_⟩
  · have htake : (s.pending.drop r).take (n - (s.released + r)) =
        (s.pending.take (n - s.released)).drop r := by
      rw [List.drop_take, Nat.sub_sub]
    have hdrop : (s.pending.drop r).drop (n - (s.released + r)) =
        s.pending.drop (n - s.released) := by
      rw [List.drop_drop]
      congr 1
      omega
    simp only [pushAt, behind, htake, hdrop, List.drop_append_of_le_length hlength]
  · simp only [pushAt, List.length_append]
    omega
  · simp only [pushAt]
    rw [List.take_append_of_le_length hlength, List.take_take]
    congr 1
    omega

theorem commutesPurely_closeBlocks (stays : Nat → Bool) :
    CommutesPurely fun s => s.closeBlocks stays := by
  intro r s h
  have hflow : (s.behind r).inFlow = s.inFlow := rfl
  dsimp only
  rw [closeBlocks, closeBlocks, hflow]
  cases s.inFlow with
  | true => exact ⟨rfl, .refl h⟩
  | false =>
    refine ⟨?_, ⟨?_, h.outer, h.flow⟩, rfl, List.take_append_of_le_length h.held⟩
    · simp only [Bool.false_eq_true, if_false, behind, List.drop_append_of_le_length h.held]
      rfl
    · exact Nat.le_trans h.held (by simp)

/-- A key place that is given up was one before. -/
theorem commutesPurely_setKeyPlace_none : CommutesPurely fun s => s.setKeyPlace none := by
  intro r s h
  obtain ⟨source, blocks, outerKey, flowKeys, keyAllowed, pending, released⟩ := s
  cases flowKeys with
  | nil =>
    refine ⟨rfl, ⟨h.held, ?_, h.flow⟩, rfl, rfl⟩
    rintro k ⟨⟩
  | cons place rest =>
    refine ⟨rfl, ⟨h.held, h.outer, ?_⟩, rfl, rfl⟩
    intro place hplace k hk
    rcases List.mem_cons.mp hplace with rfl | hplace
    · exact nomatch hk
    · exact h.flow place (List.mem_cons_of_mem _ hplace) k hk

theorem commutes_dropKey : Commutes dropKey := by
  intro r s h
  have hplace : (s.behind r).keyPlace = s.keyPlace := rfl
  rw [dropKey, dropKey, hplace]
  cases s.keyPlace with
  | none => exact ⟨rfl, fun t ht => by rw [← Except.ok.inj ht]; exact .refl h⟩
  | some k =>
    dsimp only
    cases k.required with
    | true => exact ⟨rfl, fun _ h => nomatch h⟩
    | false => exact commutesPurely_setKeyPlace_none.ok h

/-- A key place that is opened comes behind all tokens. -/
theorem commutesPurely_setKeyPlace (required : Scanner → Bool)
    (hrequired : ∀ r s, required (behind r s) = required s) : CommutesPurely fun s =>
      s.setKeyPlace (some ⟨required s, s.released + s.pending.length, s.mark⟩) := by
  intro r s h
  have hordinal : s.released + r + (s.pending.length - r) = s.released + s.pending.length := by
    have := h.held
    omega
  have hmark : (s.behind r).mark = s.mark := rfl
  have hheld := h.held
  obtain ⟨source, blocks, outerKey, flowKeys, keyAllowed, pending, released⟩ := s
  cases flowKeys with
  | nil =>
    refine ⟨?_, ⟨h.held, ?_, h.flow⟩, rfl, rfl⟩
    · dsimp only at hordinal ⊢
      rw [hrequired, hmark]
      simp only [setKeyPlace, behind, List.length_drop, hordinal]
    · rintro k ⟨⟩
      exact Nat.add_le_add_left hheld _
  | cons place rest =>
    refine ⟨?_, ⟨h.held, h.outer, ?_⟩, rfl, rfl⟩
    · dsimp only at hordinal ⊢
      rw [hrequired, hmark]
      simp only [setKeyPlace, behind, List.length_drop, hordinal]
    · intro place hplace k hk
      rcases List.mem_cons.mp hplace with rfl | hplace
      · obtain rfl := Option.some.inj hk
        exact Nat.add_le_add_left hheld _
      · exact h.flow place (List.mem_cons_of_mem _ hplace) k hk

/-- Giving up a key place leaves everything else as it is. -/
theorem openKey_eq (s : Scanner) : s.openKey = if s.keyAllowed then
    s.dropKey >>= fun t => .ok (t.setKeyPlace (some ⟨!t.inFlow && t.blocks.head? ==
      some t.mark.column, t.released + t.pending.length, t.mark⟩)) else .ok s := by
  rw [openKey]
  cases s.keyAllowed with
  | false => rfl
  | true =>
    rw [dropKey]
    cases s.keyPlace with
    | none => rfl
    | some k =>
      obtain ⟨required, ordinal, mark⟩ := k
      cases required with
      | true => rfl
      | false =>
        obtain ⟨source, blocks, outerKey, flowKeys, keyAllowed, pending, released⟩ := s
        cases flowKeys <;> rfl

theorem commutes_openKey : Commutes openKey := by
  rw [funext openKey_eq]
  exact .ite keyAllowed (fun _ _ => rfl)
    (commutes_dropKey.bind (commutesPurely_setKeyPlace
      (fun t => !t.inFlow && t.blocks.head? == some t.mark.column) fun _ _ => rfl).ok)
    (CommutesPurely.ok (f := fun s => s) fun _ _ h => ⟨rfl, .refl h⟩)

theorem commutesPurely_openBlock (t : Token) :
    CommutesPurely fun s => s.openBlock s.mark.column push t s.mark := by
  intro r s h
  have hopens : ((s.behind r).inFlow || decide ((s.behind r).mark.column < (s.behind r).margin)) =
      (s.inFlow || decide (s.mark.column < s.margin)) := rfl
  dsimp only
  rw [openBlock, openBlock, hopens]
  by_cases hc : (s.inFlow || decide (s.mark.column < s.margin)) = true
  · rw [if_pos hc, if_pos hc]
    exact ⟨rfl, .refl h⟩
  · rw [if_neg hc, if_neg hc]
    obtain ⟨heq, hkeeps⟩ := commutesPurely_push (fun s => .point t s.mark) (fun _ _ => rfl) h
    exact ⟨congrArg (fun u : Scanner => { u with blocks := s.mark.column :: s.blocks }) heq,
      ⟨hkeeps.settled.held, hkeeps.settled.outer, hkeeps.settled.flow⟩, rfl, hkeeps.tokens⟩

/-! ## One kind of token each -/

theorem commutesPurely_fields (n : Nat) (allowed : Scanner → Bool)
    (hallowed : ∀ r s, allowed (behind r s) = allowed s) :
    CommutesPurely fun s => { s.advance n with keyAllowed := allowed s } := by
  refine commutesPurely_of_fields _ (fun r s => ?_) (fun _ => rfl) (fun _ => rfl) (fun _ => rfl)
    fun _ _ h => .inl h
  rw [hallowed]
  rfl

/-- A token of its own, after which keys are allowed or not. -/
theorem commutesPurely_token (t : Scanner → Placed) (ht : ∀ r s, t (behind r s) = t s) (n : Nat)
    (allowed : Scanner → Bool) (hallowed : ∀ r s, allowed (behind r s) = allowed s) :
    CommutesPurely fun s =>
      { (s.push (t s)).advance n with keyAllowed := allowed (s.push (t s)) } :=
  (commutesPurely_push t ht).comp (commutesPurely_fields n allowed hallowed)

theorem commutesPurely_allowed (b : Bool) :
    CommutesPurely fun s => { s with keyAllowed := b } :=
  commutesPurely_of_fields _ (fun _ _ => rfl) (fun _ => rfl) (fun _ => rfl) (fun _ => rfl)
    fun _ _ h => .inl h

theorem commutesPurely_source (source : Source) :
    CommutesPurely fun s => { s with source := source } :=
  commutesPurely_of_fields _ (fun _ _ => rfl) (fun _ => rfl) (fun _ => rfl) (fun _ => rfl)
    fun _ _ h => .inl h

theorem commutes_atEnd : Commutes atEnd := by
  have hmark : ∀ m : Mark, Commutes fun s =>
      (({ s with source := [⟨endChar, m⟩] } : Scanner).closeBlocks fun _ => false).dropKey >>=
        fun s => .ok { s.push (.point .streamEnd m) with keyAllowed := false } := fun m =>
    ((commutesPurely_source _).comp (commutesPurely_closeBlocks fun _ => false)).bind
      (commutes_dropKey.bind ((commutesPurely_push (fun _ => .point .streamEnd m)
        fun _ _ => rfl).comp (commutesPurely_allowed false)).ok)
  exact .param (fun s => if s.mark.column = 0 then s.mark else ⟨s.mark.index, s.mark.line + 1, 0⟩)
    (fun _ _ => rfl) hmark

theorem commutes_directive : Commutes directive :=
  (commutesPurely_closeBlocks fun _ => false).bind (commutes_dropKey.bind
    (commutes_read (fun s => scanDirective s.source)
      (fun x s => { s.push x.1 with keyAllowed := false, source := x.2 }) (fun _ _ => rfl) fun x =>
        ((commutesPurely_push (fun _ => x.1) fun _ _ => rfl).comp
          ((commutesPurely_allowed false).comp (commutesPurely_source x.2)))))

theorem commutes_documentMark (t : Token) : Commutes fun s => s.documentMark t :=
  (commutesPurely_closeBlocks fun _ => false).bind (commutes_dropKey.bind
    (commutesPurely_token (fun s => .point t s.mark) (fun _ _ => rfl) 3 (fun _ => false)
      fun _ _ => rfl).ok)

theorem commutes_flowOpen (t : Token) : Commutes fun s => s.flowOpen t := by
  have hopen : CommutesPurely fun s =>
      { s.advance 1 with flowKeys := none :: s.flowKeys, keyAllowed := true } :=
    commutesPurely_of_fields _ (fun _ _ => rfl) (fun _ => rfl) (fun _ => rfl) (fun _ => rfl)
      fun s place h => (List.mem_cons.mp h).symm
  exact commutes_openKey.bind ((commutesPurely_push (fun s => .single t s.mark)
    fun _ _ => rfl).comp hopen).ok

theorem commutes_flowClose (t : Token) : Commutes fun s => s.flowClose t := by
  have hclose : CommutesPurely fun s =>
      { s.advance 1 with flowKeys := s.flowKeys.drop 1, keyAllowed := false } :=
    commutesPurely_of_fields _ (fun _ _ => rfl) (fun _ => rfl) (fun _ => rfl) (fun _ => rfl)
      fun s place h => .inl (List.mem_of_mem_drop h)
  exact commutes_dropKey.bind ((commutesPurely_push (fun s => .single t s.mark)
    fun _ _ => rfl).comp hclose).ok

theorem commutes_flowEntry : Commutes flowEntry :=
  commutes_dropKey.bind (commutesPurely_token (fun s => .single .flowEntry s.mark)
    (fun _ _ => rfl) 1 (fun _ => true) fun _ _ => rfl).ok

theorem commutes_blockEntry : Commutes blockEntry :=
  .ite (fun s => !s.inFlow && !s.keyAllowed) (fun _ _ => rfl)
    (commutes_error (fun s => .bare .entryNotAllowed s.mark) fun _ _ => rfl)
    ((commutesPurely_openBlock .blockSequenceStart).bind (commutes_dropKey.bind
      (commutesPurely_token (fun s => .single .blockEntry s.mark) (fun _ _ => rfl) 1 (fun _ => true)
        fun _ _ => rfl).ok))

theorem commutes_key : Commutes key :=
  .ite (fun s => !s.inFlow && !s.keyAllowed) (fun _ _ => rfl)
    (commutes_error (fun s => .bare .keyNotAllowed s.mark) fun _ _ => rfl)
    ((commutesPurely_openBlock .blockMappingStart).bind (commutes_dropKey.bind
      (commutesPurely_token (fun s => .single .key s.mark) (fun _ _ => rfl) 1 (fun s => !s.inFlow)
        fun _ _ => rfl).ok))

/-- A mapping that is opened where a key begins comes behind what is settled. -/
theorem openBlock_behind {k : KeyPlace} (h : Settled r s) (hk : s.released + r ≤ k.ordinal) :
    (s.behind r).openBlock k.mark.column (·.pushAt k.ordinal) .blockMappingStart k.mark =
        (s.openBlock k.mark.column (·.pushAt k.ordinal) .blockMappingStart k.mark).behind r ∧
      Keeps r s (s.openBlock k.mark.column (·.pushAt k.ordinal) .blockMappingStart k.mark) := by
  have hopens : ((s.behind r).inFlow || decide (k.mark.column < (s.behind r).margin)) =
      (s.inFlow || decide (k.mark.column < s.margin)) := rfl
  rw [openBlock, openBlock, hopens]
  by_cases hc : (s.inFlow || decide (k.mark.column < s.margin)) = true
  · rw [if_pos hc, if_pos hc]
    exact ⟨rfl, .refl h⟩
  · rw [if_neg hc, if_neg hc]
    obtain ⟨heq, hkeeps⟩ := pushAt_behind h hk (.point .blockMappingStart k.mark)
    exact ⟨congrArg (fun u : Scanner => { u with blocks := k.mark.column :: s.blocks }) heq,
      ⟨hkeeps.settled.held, hkeeps.settled.outer, hkeeps.settled.flow⟩, rfl, hkeeps.tokens⟩

/-- What the colon settles to be a key comes behind what has been settled before. -/
theorem commutes_value : Commutes value := by
  have hbare : Commutes fun s => if !s.inFlow && !s.keyAllowed then
      .error (.bare .valueNotAllowed s.mark) else
      .ok { ((s.openBlock s.mark.column push .blockMappingStart s.mark).push
        (.single .value (s.openBlock s.mark.column push .blockMappingStart s.mark).mark)).advance 1
        with keyAllowed := !(s.openBlock s.mark.column push .blockMappingStart s.mark).inFlow } :=
    .ite (fun s => !s.inFlow && !s.keyAllowed) (fun _ _ => rfl)
      (commutes_error (fun s => .bare .valueNotAllowed s.mark) fun _ _ => rfl)
      ((commutesPurely_openBlock .blockMappingStart).comp (commutesPurely_token
        (fun s => .single .value s.mark) (fun _ _ => rfl) 1 (fun s => !s.inFlow)
          fun _ _ => rfl)).ok
  have hsettle : CommutesPurely fun s => { ((s.setKeyPlace none).push
      (.single .value (s.setKeyPlace none).mark)).advance 1 with keyAllowed := false } :=
    commutesPurely_setKeyPlace_none.comp (commutesPurely_token (fun s => .single .value s.mark)
      (fun _ _ => rfl) 1 (fun _ => false) fun _ _ => rfl)
  intro r s h
  have hplace : (s.behind r).keyPlace = s.keyPlace := rfl
  rw [value, value, hplace]
  cases hk : s.keyPlace with
  | none => exact hbare h
  | some k =>
    have hordinal := h.keyPlace k hk
    obtain ⟨hkey, hkeeps⟩ := pushAt_behind h hordinal (.point .key k.mark)
    obtain ⟨hblock, hkeeps'⟩ := openBlock_behind hkeeps.settled (k := k)
      (by rw [hkeeps.released]; exact hordinal)
    obtain ⟨hvalue, hkeeps''⟩ := hsettle hkeeps'.settled
    dsimp only at hvalue ⊢
    rw [hkey, hblock, hvalue]
    refine ⟨rfl, ?_⟩
    rintro _ ⟨⟩
    exact (hkeeps.trans hkeeps').trans hkeeps''

theorem commutes_property (read : Source → Except Fault (Placed × Source)) :
    Commutes fun s => s.property read :=
  commutes_openKey.bind (commutes_read (fun s => read s.source)
    (fun x s => { s.push x.1 with keyAllowed := false, source := x.2 }) (fun _ _ => rfl) fun x =>
      ((commutesPurely_push (fun _ => x.1) fun _ _ => rfl).comp
        ((commutesPurely_allowed false).comp (commutesPurely_source x.2))))

/-- A scalar is read without a look at the tokens. -/
theorem commutes_scalar (read : Scanner → Except Fault ScalarScan)
    (hread : ∀ r s, read (behind r s) = read s) (style : Scanner → Style)
    (hstyle : ∀ r s, style (behind r s) = style s) (allowed : ScalarScan → Bool) :
    Commutes fun s => read s >>= fun x =>
      .ok { s.push (.point (.scalar (style s) x.text) s.mark) with
        keyAllowed := allowed x, source := x.rest } :=
  commutes_read read _ hread fun x =>
    (commutesPurely_push (fun s => .point (.scalar (style s) x.text) s.mark) fun r s => by
      rw [hstyle]; rfl).comp ((commutesPurely_allowed (allowed x)).comp
        (commutesPurely_source x.rest))

theorem commutes_blockScalar (folded : Bool) : Commutes fun s => s.blockScalar folded :=
  commutes_dropKey.bind (commutes_scalar (fun s => scanBlock folded s.margin s.source)
    (fun _ _ => rfl) (fun _ => if folded then Style.folded else .literal) (fun _ _ => rfl)
    fun _ => true)

theorem commutes_quotedScalar : Commutes quotedScalar :=
  commutes_openKey.bind (commutes_scalar (fun s => scanQuoted s.source) (fun _ _ => rfl)
    (fun s => if Source.char s.source == '"' then Style.double else .single) (fun _ _ => rfl)
    fun _ => false)

theorem commutes_plainScalar : Commutes plainScalar :=
  commutes_openKey.bind (commutes_scalar (fun s => scanPlain s.inFlow s.margin s.source)
    (fun _ _ => rfl) (fun _ => .plain) (fun _ _ => rfl) ScalarScan.newLine)

/-! ## Reading a token -/

theorem commutes_readToken : Commutes readToken := by
  refine .ite _ (fun _ _ => rfl) commutes_atEnd ?_
  refine .ite _ (fun _ _ => rfl) commutes_directive ?_
  refine .ite _ (fun _ _ => rfl) (commutes_documentMark _) ?_
  refine .ite _ (fun _ _ => rfl) (commutes_documentMark _) ?_
  refine .ite _ (fun _ _ => rfl) (commutes_flowOpen _) ?_
  refine .ite _ (fun _ _ => rfl) (commutes_flowOpen _) ?_
  refine .ite _ (fun _ _ => rfl) (commutes_flowClose _) ?_
  refine .ite _ (fun _ _ => rfl) (commutes_flowClose _) ?_
  refine .ite _ (fun _ _ => rfl) commutes_flowEntry ?_
  refine .ite _ (fun _ _ => rfl) commutes_blockEntry ?_
  refine .ite _ (fun _ _ => rfl) commutes_key ?_
  refine .ite _ (fun _ _ => rfl) commutes_value ?_
  refine .ite _ (fun _ _ => rfl) (commutes_property _) ?_
  refine .ite _ (fun _ _ => rfl) (commutes_property _) ?_
  refine .ite _ (fun _ _ => rfl) (.param inFlow (fun _ _ => rfl) fun _ => commutes_property _) ?_
  refine .ite _ (fun _ _ => rfl) (commutes_blockScalar _) ?_
  refine .ite _ (fun _ _ => rfl) (commutes_blockScalar _) ?_
  refine .ite _ (fun _ _ => rfl) commutes_quotedScalar ?_
  refine .ite _ (fun _ _ => rfl) commutes_plainScalar ?_
  exact commutes_error _ fun _ _ => rfl

/-- **Reading a token commutes with releasing.** -/
theorem commutes_take : Commutes take :=
  .param (fun s => s.mark.column) (fun _ _ => rfl) fun column =>
    (commutesPurely_closeBlocks fun c => c ≤ column).bind commutes_readToken

/-! ## Between two tokens -/

theorem commutesPurely_skipGap : CommutesPurely skipGap := by
  intro r s h
  exact ⟨rfl, ⟨h.held, h.outer, h.flow⟩, rfl, rfl⟩

/-- A key place is kept or given up. -/
theorem refresh_eq_ok {place place' : Option KeyPlace} (h : s.refresh place = .ok place') :
    place' = place ∨ place' = none := by
  cases place with
  | none => exact .inl (Except.ok.inj h).symm
  | some k =>
    rw [refresh] at h
    split at h
    · split at h
      · exact nomatch h
      · exact .inr (Except.ok.inj h).symm
    · exact .inl (Except.ok.inj h).symm

/-- Each of several key places is kept or given up. -/
theorem mapM_refresh_eq_ok {places places' : List (Option KeyPlace)}
    (h : places.mapM s.refresh = .ok places') :
    ∀ place ∈ places', place ∈ places ∨ place = none := by
  induction places generalizing places' with
  | nil =>
    obtain rfl := Except.ok.inj h
    exact fun _ h => absurd h List.not_mem_nil
  | cons place places ih =>
    obtain ⟨place', rest, hplace, hrest, rfl⟩ := mapM_cons_eq_ok_iff.mp h
    refine List.forall_mem_cons.mpr ⟨?_, fun p hp => ?_⟩
    · exact (refresh_eq_ok hplace).imp_left fun h => by simp [h]
    · exact (ih hrest p hp).imp_left (List.mem_cons_of_mem _)

theorem commutes_dropStale : Commutes dropStale := by
  intro r s h
  have hrefresh : (s.behind r).refresh = s.refresh := by
    funext k
    cases k <;> rfl
  constructor
  · rw [dropStale, dropStale, hrefresh]
    show s.refresh s.outerKey >>= _ = Except.map _ (s.refresh s.outerKey >>= _)
    cases s.refresh s.outerKey with
    | error => rfl
    | ok outer =>
      show s.flowKeys.reverse.mapM s.refresh >>= _ =
        Except.map _ (s.flowKeys.reverse.mapM s.refresh >>= _)
      cases s.flowKeys.reverse.mapM s.refresh <;> rfl
  · intro t ht
    obtain ⟨outer, houter, ht⟩ := bind_eq_ok_iff.mp ht
    obtain ⟨inner, hinner, ht⟩ := bind_eq_ok_iff.mp ht
    obtain rfl := Except.ok.inj ht
    refine ⟨⟨h.held, ?_, ?_⟩, rfl, rfl⟩
    · rcases refresh_eq_ok houter with rfl | rfl
      · exact h.outer
      · rintro k ⟨⟩
    · intro place hplace k hk
      rcases mapM_refresh_eq_ok hinner place (List.mem_reverse.mp hplace) with hplace | rfl
      · exact h.flow place (List.mem_reverse.mp hplace) k hk
      · exact nomatch hk

theorem commutes_approach : Commutes approach := commutesPurely_skipGap.bind commutes_dropStale

/-- **What is read next does not depend on what has been released.** -/
theorem commutes_fetch : Commutes fetch := commutes_approach.bind commutes_take

/-! ## Releasing -/

/-- The least of some numbers. -/
theorem foldl_min_le (places : List KeyPlace) (released n : Nat) :
    places.foldl (fun n k => min n (k.ordinal - released)) n ≤ n ∧
      ∀ k ∈ places, places.foldl (fun n k => min n (k.ordinal - released)) n ≤
        k.ordinal - released := by
  induction places generalizing n with
  | nil => simp
  | cons k places ih =>
    obtain ⟨hle, hall⟩ := ih (min n (k.ordinal - released))
    exact ⟨Nat.le_trans hle (Nat.min_le_left _ _),
      List.forall_mem_cons.mpr ⟨Nat.le_trans hle (Nat.min_le_right _ _), hall⟩⟩

/-- What a reader releases is settled. -/
theorem settled_settled (h : Settled 0 s) : Settled s.settled s := by
  obtain ⟨hle, hall⟩ := foldl_min_le ((s.outerKey :: s.flowKeys).filterMap id) s.released
    s.pending.length
  have hplace : ∀ place ∈ s.outerKey :: s.flowKeys, ∀ k ∈ place, s.released ≤ k.ordinal →
      s.released + s.settled ≤ k.ordinal := by
    intro place hplace k hk hreleased
    have := hall k (List.mem_filterMap.mpr ⟨place, hplace, hk⟩)
    rw [← settled] at this
    omega
  refine ⟨hle, fun k hk => hplace s.outerKey List.mem_cons_self k hk (h.outer k hk),
    fun place hmem k hk => hplace place (List.mem_cons_of_mem _ hmem) k hk (h.flow place hmem k hk)⟩

theorem behind_behind (r n : Nat) (s : Scanner) : (s.behind r).behind n = s.behind (r + n) := by
  simp only [behind, List.drop_drop, Nat.add_assoc]

/-- What is settled behind some tokens is settled with them. -/
theorem Settled.add {n : Nat} (hr : Settled r s) (h : Settled n (s.behind r)) :
    Settled (r + n) s := by
  obtain ⟨hheld, houter, hflow⟩ := h
  have hr := hr.held
  simp only [behind, List.length_drop, Nat.add_assoc] at hheld houter hflow
  exact ⟨by omega, houter, hflow⟩

/-- Behind settled tokens no key is left behind. -/
theorem Settled.behind (h : Settled r s) : Settled 0 (s.behind r) :=
  ⟨Nat.zero_le _, h.outer, h.flow⟩

end Provision.Yaml.Scanner
