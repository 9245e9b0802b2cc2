import Provision.Proofs.Yaml.Readback.Block

/-!
# A document is scanned

What is written of a document consists of safe characters, so that it is located one character at a
time and no part of it is cut off. Scanning it gives the tokens of its root and the end.

> `safe_node`: what is written is safe;
> `scan_render`: the tokens of a document the root of which is a mapping with entries.
-/

namespace Provision.Yaml

open Outline (isSafe endsLine spaces tagText tagBefore scalarText settle simpleKey? node items
  entries block render)
open Scanner (spot entryText entries_cons)

/-! ## Safe characters -/

/-- Whether a text consists of safe characters. -/
abbrev Safe (cs : List Char) : Prop := ∀ c ∈ cs, isSafe c = true

variable {cs ds : List Char}

theorem Safe.append (hcs : Safe cs) (hds : Safe ds) : Safe (cs ++ ds) :=
  List.forall_mem_append.mpr ⟨hcs, hds⟩

theorem OneLine.safe (h : OneLine cs) : Safe cs := fun c hc => (h c hc).1

theorem safe_spaces (n : Nat) : Safe (spaces n) := fun c hc => by
  rw [List.eq_of_mem_replicate hc]
  rfl

theorem safe_singleBody (h : Safe cs) (margin : Nat) (pending : Bool) :
    Safe (Outline.singleBody margin pending cs) := by
  induction cs generalizing pending with
  | nil =>
    rw [Outline.singleBody]
    split
    · exact safe_spaces margin
    · exact List.forall_mem_nil _
  | cons c cs ih =>
    obtain ⟨hc, hcs⟩ := List.forall_mem_cons.mp h
    rw [Outline.singleBody]
    split
    · refine Safe.append ?_ (List.forall_mem_cons.mpr ⟨hc, ih hcs true⟩)
      split <;> decide
    · refine Safe.append (Safe.append ?_ ?_) (ih hcs false)
      · split
        · exact safe_spaces margin
        · exact List.forall_mem_nil _
      · split
        · decide
        · exact List.forall_mem_singleton.mpr hc

theorem safe_literalHead (cs : List Char) : Safe (Outline.literalHead cs) := by
  rw [Outline.literalHead]
  refine List.forall_mem_cons.mpr ⟨rfl, Safe.append ?_ ?_⟩
  · split <;> decide
  · split
    · decide
    · split
      · decide
      · split <;> decide

/-- What is written of a scalar is safe. -/
theorem safe_scalarText (margin : Nat) (wanted : Style) (isKey : Bool) (cs : List Char) :
    Safe (scalarText margin wanted isKey cs) := by
  obtain ⟨hstyle, hholds⟩ | ⟨hstyle, hholds⟩ | hstyle | ⟨hstyle, hholds, -⟩ :=
    Scanner.settle_holds wanted isKey cs
  · rw [scalarText, hstyle]
    exact OneLine.safe (plainHolds_iff.mp hholds).1
  · rw [scalarText, hstyle]
    exact Safe.append (List.forall_mem_cons.mpr ⟨rfl,
      safe_singleBody (singleHolds_iff.mp hholds).1 margin false⟩) (by decide)
  · rw [scalarText, hstyle]
    exact Safe.append (List.forall_mem_cons.mpr ⟨rfl, (oneLine_escaped cs).safe⟩) (by decide)
  · rw [scalarText, hstyle]
    exact Safe.append (safe_literalHead cs) (List.forall_mem_cons.mpr ⟨rfl,
      isSafe_of_mem_literalBody (literalHolds_iff.mp hholds).2.1⟩)

theorem safe_gap (place : Outline.Place) : Safe place.gap := by
  have hspace : Safe [' '] := by decide
  cases place with
  | top => exact nofun
  | item => exact hspace
  | mark => exact hspace
  | key => exact hspace

theorem safe_tagBefore (tag : Option String) : Safe (tagBefore tag) := (oneLine_tagBefore tag).safe

/-- The lines of a collection are safe if each is. -/
theorem safe_block {es : List (List Char)} (h : ∀ e ∈ es, Safe e) (place : Outline.Place)
    (tag : Option String) (column : Nat) : Safe (block place tag column es) := by
  have hall : Safe (es.flatMap fun e => spaces column ++ e) := by
    intro c hc
    obtain ⟨e, he, hc⟩ := List.mem_flatMap.mp hc
    exact (safe_spaces column).append (h e he) c hc
  rw [block]
  split
  · exact (safe_gap place).append fun c hc => hall c (List.mem_of_mem_drop hc)
  · refine Safe.append ?_ (List.forall_mem_cons.mpr ⟨rfl, hall⟩)
    cases tag with
    | none => exact List.forall_mem_nil _
    | some t => exact (safe_gap place).append (OneLine.safe (isSafe_of_mem_tagText t))

theorem safe_items {os : List Outline} (h : ∀ o ∈ os, ∀ place, Safe (node place o)) (column : Nat) :
    ∀ e ∈ items column os, Safe e := by
  induction os with
  | nil => exact nofun
  | cons o os ih =>
    obtain ⟨ho, hos⟩ := List.forall_mem_cons.mp h
    rw [items]
    exact List.forall_mem_cons.mpr ⟨List.forall_mem_cons.mpr ⟨rfl, ho _⟩, ih hos⟩

theorem safe_entryText {key value : Outline} (hkey : ∀ place, Safe (node place key))
    (hvalue : ∀ place, Safe (node place value)) (column : Nat) :
    Safe (entryText column key value) := by
  rw [entryText]
  split
  next text hsimple =>
    exact (simpleKey_of_eq_some hsimple).oneLine.1.safe.append
      (List.forall_mem_cons.mpr ⟨rfl, hvalue _⟩)
  next =>
    exact ((Safe.append (List.forall_mem_cons.mpr ⟨rfl, hkey _⟩) (safe_spaces _))).append
      (List.forall_mem_cons.mpr ⟨rfl, hvalue _⟩)

theorem safe_entries {es : List (Outline × Outline)}
    (hkeys : ∀ e ∈ es, ∀ place, Safe (node place e.1))
    (hvalues : ∀ e ∈ es, ∀ place, Safe (node place e.2)) (column : Nat) :
    ∀ e ∈ entries column es, Safe e := by
  induction es with
  | nil => exact nofun
  | cons e es ih =>
    obtain ⟨hkey, hkeys⟩ := List.forall_mem_cons.mp hkeys
    obtain ⟨hvalue, hvalues⟩ := List.forall_mem_cons.mp hvalues
    rw [entries_cons]
    exact List.forall_mem_cons.mpr ⟨safe_entryText hkey hvalue column, ih hkeys hvalues⟩

/-- **What is written of a node is safe.** -/
theorem safe_node {o : Outline} (ho : o.Legible) (place : Outline.Place) : Safe (node place o) := by
  induction ho generalizing place with
  | scalar =>
    rw [node]
    refine (((safe_gap place).append (safe_tagBefore _)).append (safe_scalarText _ _ _ _)).append ?_
    split <;> decide
  | @sequence tag os _ _ ih =>
    cases os with
    | nil =>
      rw [node]
      exact ((safe_gap place).append (safe_tagBefore _)).append (by decide)
    | cons o os =>
      rw [node]
      exact safe_block (safe_items ih _) _ _ _
  | @mapping tag es _ _ _ ihkeys ihvalues =>
    cases es with
    | nil =>
      rw [node]
      exact ((safe_gap place).append (safe_tagBefore _)).append (by decide)
    | cons e es =>
      rw [node]
      exact safe_block (safe_entries ihkeys ihvalues _) _ _ _

/-! ## The tokens of a document -/

theorem streamEnd_not_mem_tagTokens (tag : Option String) : .streamEnd ∉ tagTokens tag := by
  cases tag with
  | none => exact List.not_mem_nil
  | some t =>
    simp only [tagTokens, tagToken, Option.map_some, Option.toList_some, List.mem_singleton]
    split <;> (intro h; cases h)

theorem streamEnd_not_mem_keyTokens (o : Outline) : .streamEnd ∉ keyTokens o := by
  cases o <;> simp [keyTokens, streamEnd_not_mem_tagTokens]

theorem streamEnd_not_mem_itemTokens {os : List Outline}
    (h : ∀ o ∈ os, ∀ place, .streamEnd ∉ nodeTokens place o) (column : Nat) :
    .streamEnd ∉ itemTokens column os := by
  induction os with
  | nil => exact nofun
  | cons o os ih =>
    obtain ⟨ho, hos⟩ := List.forall_mem_cons.mp h
    simp [itemTokens, ho, ih hos]

theorem streamEnd_not_mem_entryTokens {es : List (Outline × Outline)}
    (hkeys : ∀ e ∈ es, ∀ place, .streamEnd ∉ nodeTokens place e.1)
    (hvalues : ∀ e ∈ es, ∀ place, .streamEnd ∉ nodeTokens place e.2) (column : Nat) :
    .streamEnd ∉ entryTokens column es := by
  induction es with
  | nil => exact nofun
  | cons e es ih =>
    obtain ⟨hkey, hkeys⟩ := List.forall_mem_cons.mp hkeys
    obtain ⟨hvalue, hvalues⟩ := List.forall_mem_cons.mp hvalues
    rw [entryTokens, List.mem_append, not_or]
    refine ⟨?_, ih hkeys hvalues⟩
    split <;> simp [streamEnd_not_mem_keyTokens, hkey, hvalue]

/-- No token of a node is the end of the text. -/
theorem streamEnd_not_mem_nodeTokens {o : Outline} (ho : o.Legible) (place : Outline.Place) :
    .streamEnd ∉ nodeTokens place o := by
  induction ho generalizing place with
  | scalar => simp [nodeTokens, streamEnd_not_mem_tagTokens]
  | @sequence tag os _ _ ih =>
    cases os with
    | nil => simp [nodeTokens, streamEnd_not_mem_tagTokens]
    | cons o os =>
      have hitems := streamEnd_not_mem_itemTokens ih (place.sequenceColumn tag.isSome)
      rw [nodeTokens, List.mem_append, not_or]
      refine ⟨streamEnd_not_mem_tagTokens tag, ?_⟩
      split <;> simp [hitems]
  | @mapping tag es _ _ _ ihkeys ihvalues =>
    cases es with
    | nil => simp [nodeTokens, streamEnd_not_mem_tagTokens]
    | cons e es =>
      have hentries := streamEnd_not_mem_entryTokens ihkeys ihvalues place.mappingColumn
      simp [nodeTokens, streamEnd_not_mem_tagTokens, hentries]

/-- What is read of a safe text from its begin on is all that is scanned. -/
theorem scan_of_yields {text : String} {all : List Placed} (hsafe : Safe text.toList)
    (h : Scanner.Yields (spot [] none true {} text.toList []) all) : scan text = ⟨all, none⟩ := by
  obtain ⟨-, s, hs, hyields⟩ := h
  obtain rfl : spot [] none true {} text.toList [] = s := by
    rw [Scanner.dropStale_spot _ none _ _ _ nofun] at hs
    exact Except.ok.inj hs
  obtain ⟨rest, -, hscan, hall⟩ := hyields 0 ((locate {} text.toList).length + 1)
    (String.ofList text.toList).utf8ByteSize ⟨Nat.zero_le _, nofun, nofun⟩ (by
      rw [locate_eq_laid hsafe]
      exact Nat.le_succ _)
  simp only [List.take_zero, List.nil_append] at hall
  rw [← hall, ← hscan, scan, readable_of_isSafe hsafe]
  simp only [Option.map_none, locate_eq_laid hsafe]
  rfl

/-- **A document the root of which is a mapping with entries is scanned.** -/
theorem scan_render {e : Outline × Outline} {es : List (Outline × Outline)}
    (h : Outline.Legible (.mapping none (e :: es))) : ∃ ps,
      scan (render (.mapping none (e :: es))) = ⟨ps, none⟩ ∧
      ps.map Placed.token = nodeTokens .top (.mapping none (e :: es)) ++ [.streamEnd] := by
  have hstream := streamEnd_not_mem_nodeTokens h .top
  have hsafe := safe_node h .top
  cases h with
  | mapping legible keys values =>
    obtain ⟨m', hm', hread⟩ := Scanner.reads_entries [] [] [] [.blockMappingStart] (m := {})
      (d := 0) (k := 0) (fun e he => Scanner.isRead_of_legible (keys e he))
      (fun e he => Scanner.isRead_of_legible (values e he)) keys (.opens nofun) rfl (Nat.le_refl 0)
      nofun
    obtain ⟨more, hmore, hleads⟩ := hread []
    have htokens : nodeTokens .top (.mapping none (e :: es)) =
        more.map Placed.token ++ [.blockEnd] := by
      rw [hmore, nodeTokens]
      rfl
    rw [htokens, List.mem_append, not_or] at hstream
    obtain ⟨ends, hends, hyields⟩ := Scanner.yields_end 0 true more (m := m')
      (Nat.zero_le _) fun p hp hp' => hstream.1 (List.mem_map.mpr ⟨p, hp, hp'⟩)
    have htext : node .top (.mapping none (e :: es)) = entryText 0 e.1 e.2 ++
        (((entries 0 es).flatMap fun e => spaces 0 ++ e) ++ (spaces 0 ++ [])) := by
      rw [node, entries_cons, block, List.flatMap_cons]
      simp [Outline.Place.isCompact, Outline.Place.gap, Outline.Place.mappingColumn, spaces]
    refine ⟨more ++ ends, scan_of_yields (by rwa [render, String.toList_ofList]) ?_, ?_⟩
    · rw [render, String.toList_ofList, htext]
      exact hleads _ hyields
    · rw [List.map_append, hends, htokens, List.append_assoc]
      rfl

end Provision.Yaml
