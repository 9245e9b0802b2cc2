import Mathlib.Data.List.Chain
import Provision.Proofs.Result
import Provision.Recipe

/-!
# Templates that are written segment by segment

A template is written from segments: literal texts, with each brace doubled, placeholders and
references for the shell. The four kinds of tokens share their characters, so that braces of
different tokens meet at the boundaries. Still each token is read as it has been written, wherever
it stands, except for a dollar sign before an opening brace. So reading gives the segments back, and
rendering puts in the values.

> `next_placeholder`, `next_shell`: what is read where a token begins;
> `pieces_tokens`: reading gives the tokens back that have been written;
> `renderPieces_eq`: the text of pieces, or the first name without a value;
> `substitute_segments`: what becomes of a template that is written from segments.
-/

namespace Provision.Template

/-! ## What is read where a token begins -/

/-- Whether a text is an identifier, as a placeholder needs it. -/
def IsName : List Char → Prop
  | [] => False
  | c :: cs => startsName c ∧ ∀ d ∈ cs, continuesName d

instance : DecidablePred IsName
  | [] => inferInstanceAs (Decidable False)
  | c :: cs => inferInstanceAs (Decidable (startsName c ∧ ∀ d ∈ cs, continuesName d))

theorem next_other {c : Char} (hopen : c ≠ '\x7b') (hclose : c ≠ '\x7d') (hdollar : c ≠ '$')
    (rest : List Char) : next c rest = (.literal [c], rest) := by
  simp [next, hopen, hclose, hdollar]

/-- A dollar that opens nothing stands for itself. -/
theorem next_dollar {rest : List Char} (h : rest.head? ≠ some '\x7b') :
    next '$' rest = (.literal ['$'], rest) := by
  cases rest with
  | nil => rfl
  | cons c rest =>
    have hc : c ≠ '\x7b' := fun hc => h (hc ▸ rfl)
    simp [next, hc]

/-- A single closing brace stands for itself. -/
theorem next_closing {rest : List Char} (h : rest.head? ≠ some '\x7d') :
    next '\x7d' rest = (.literal ['\x7d'], rest) := by
  cases rest with
  | nil => rfl
  | cons c rest =>
    have hc : c ≠ '\x7d' := fun hc => h (hc ▸ rfl)
    simp [next, hc]

/-- A doubled brace stands for one. -/
theorem next_doubled {c : Char} (hc : c = '\x7b' ∨ c = '\x7d') (rest : List Char) :
    next c (c :: rest) = (.literal [c], rest) := by
  rcases hc with rfl | rfl <;> rfl

/-- A run of characters of one kind is taken up to the character that stops it. -/
theorem takeWhile_dropWhile_stop {p : Char → Bool} {run : List Char} {stop : Char}
    (hrun : ∀ c ∈ run, p c = true) (hstop : p stop = false) (rest : List Char) :
    (run ++ stop :: rest).takeWhile p = run ∧
      (run ++ stop :: rest).dropWhile p = stop :: rest := by
  rw [List.takeWhile_append_of_pos hrun, List.dropWhile_append_of_pos hrun]
  simp [hstop]

/-- A name between braces is a placeholder. -/
theorem next_placeholder {name : List Char} (h : IsName name) (rest : List Char) :
    next '\x7b' (name ++ '\x7d' :: rest) = (.placeholder name, rest) := by
  cases name with
  | nil => exact absurd h not_false
  | cons c name =>
    obtain ⟨hstart, hgo⟩ := h
    have hc : c ≠ '\x7b' := by
      rintro rfl
      exact absurd hstart (by decide)
    have hstop : continuesName '\x7d' = false := by decide
    obtain ⟨htake, hdrop⟩ := takeWhile_dropWhile_stop hgo hstop rest
    simp [next, hstart, hdrop, htake]

/-- A dollar with braces is left to the shell, up to the first closing brace. -/
theorem next_shell {inner : List Char} (h : '\x7d' ∉ inner) (rest : List Char) :
    next '$' ('\x7b' :: (inner ++ '\x7d' :: rest)) =
      (.literal ('$' :: '\x7b' :: (inner ++ ['\x7d'])), rest) := by
  have hopen : ∀ c ∈ inner, isOpen c = true := by
    intro c hc
    simpa [isOpen] using fun e : c = '\x7d' => h (e ▸ hc)
  have hstop : isOpen '\x7d' = false := by decide
  obtain ⟨htake, hdrop⟩ := takeWhile_dropWhile_stop hopen hstop rest
  simp [next, hdrop, htake]

/-! ## The text of pieces -/

namespace Piece

/-- The name that a piece needs a value for. -/
def name? : Piece → Option String
  | literal _ => none
  | placeholder name => some (String.ofList name)

/-- What a piece puts into the text, if its name has a value. -/
def shown (value : String → Option String) : Piece → List Char
  | literal cs => cs
  | placeholder name => ((value (String.ofList name)).getD "").toList

end Piece

/-- Pieces have a text if all their names have values, and else the first name without one. -/
theorem renderPieces_eq (value : String → Option String) (ps : List Piece) :
    renderPieces value ps =
      match (ps.filterMap Piece.name?).find? fun n => (value n).isNone with
      | none => .ok (ps.flatMap (Piece.shown value))
      | some n => .error n := by
  induction ps with
  | nil => rfl
  | cons p ps ih =>
    cases p with
    | literal cs =>
      have hname : (Piece.literal cs).name? = none := rfl
      rw [renderPieces, ih, List.filterMap_cons_none hname]
      split <;> rfl
    | placeholder name =>
      have hname : (Piece.placeholder name).name? = some (String.ofList name) := rfl
      rw [renderPieces, List.filterMap_cons_some hname, List.find?_cons]
      cases hv : value (String.ofList name) with
      | none => rfl
      | some v =>
        rw [ih, Option.isNone_some]
        simp only
        split
        next => simp [bind, Except.bind, pure, Except.pure, Piece.shown, hv]
        next => rfl

/-! ## Segments -/

/-- A part of a template as its author means it. -/
inductive Segment
  | literal (text : List Char)
  | placeholder (name : List Char)
  | shell (inner : List Char)
deriving DecidableEq, Repr

namespace Segment

/-- How a character of a literal text is written. -/
def writeChar (c : Char) : List Char := if c = '\x7b' ∨ c = '\x7d' then [c, c] else [c]

/-- How a segment is written. -/
def write : Segment → List Char
  | literal text => text.flatMap writeChar
  | placeholder name => '\x7b' :: (name ++ ['\x7d'])
  | shell inner => '$' :: '\x7b' :: (inner ++ ['\x7d'])

/-- Whether a segment can be written: a placeholder needs an identifier, and a reference for the
shell ends at the first closing brace. -/
def Valid : Segment → Prop
  | literal _ => True
  | placeholder name => IsName name
  | shell inner => '\x7d' ∉ inner

/-- The tokens of a segment: a literal text has one for each character. -/
def tokens : Segment → List Segment
  | literal text => text.map fun c => literal [c]
  | s => [s]

/-- What is to be read where a token stands. -/
def piece : Segment → Piece
  | literal text => .literal text
  | placeholder name => .placeholder name
  | shell inner => .literal ('$' :: '\x7b' :: (inner ++ ['\x7d']))

/-- Whether one token may stand directly before another: after a literal dollar sign no literal
opening brace and no placeholder may follow. -/
def MayPrecede (a b : Segment) : Prop :=
  a = literal ['$'] → b ≠ literal ['\x7b'] ∧ ∀ name, b ≠ placeholder name

/-- The name that a segment needs a value for. -/
def name? (s : Segment) : Option String := s.piece.name?

/-- What a segment stands for, if its name has a value. -/
def shown (value : String → Option String) (s : Segment) : List Char := s.piece.shown value

/-! ## Reading what has been written -/

/-- Tokens are single: a token is its own token. -/
theorem tokens_of_mem_tokens {s t : Segment} (h : t ∈ s.tokens) : t.tokens = [t] := by
  cases s with
  | literal text =>
    obtain ⟨c, -, rfl⟩ := List.mem_map.mp h
    rfl
  | placeholder name =>
    obtain rfl := List.mem_singleton.mp h
    rfl
  | shell inner =>
    obtain rfl := List.mem_singleton.mp h
    rfl

/-- The tokens of a valid segment are valid. -/
theorem valid_of_mem_tokens {s t : Segment} (hs : s.Valid) (h : t ∈ s.tokens) : t.Valid := by
  cases s with
  | literal text =>
    obtain ⟨c, -, rfl⟩ := List.mem_map.mp h
    trivial
  | placeholder name => rwa [List.mem_singleton.mp h]
  | shell inner => rwa [List.mem_singleton.mp h]

/-- A segment is written token by token. -/
theorem flatMap_write_tokens (s : Segment) : s.tokens.flatMap write = s.write := by
  cases s with
  | literal text => simp [tokens, write, List.flatMap_map]
  | placeholder name => simp [tokens]
  | shell inner => simp [tokens]

/-- Cutting a segment into tokens does not change what it shows. -/
theorem flatMap_shown_tokens (value : String → Option String) (s : Segment) :
    s.tokens.flatMap (shown value) = s.shown value := by
  cases s with
  | literal text => simp [tokens, shown, piece, Piece.shown, List.flatMap_map]
  | placeholder name => simp [tokens]
  | shell inner => simp [tokens]

/-- Cutting a segment into tokens does not change which name it refers to. -/
theorem filterMap_name?_tokens (s : Segment) : s.tokens.filterMap name? = s.name?.toList := by
  cases s with
  | literal text => simp [tokens, name?, piece, Piece.name?]
  | placeholder name => rfl
  | shell inner => rfl

theorem exists_char {text : List Char} (h : (literal text).tokens = [literal text]) :
    ∃ c, text = [c] := by
  have hlen := congrArg List.length h
  rw [tokens, List.length_map, List.length_singleton] at hlen
  exact List.length_eq_one_iff.mp hlen

/-- After a dollar sign nothing is written that begins with an opening brace. -/
theorem head?_write_ne {ts : List Segment} (hsingle : ∀ t ∈ ts, t.tokens = [t])
    (hchain : (literal ['$'] :: ts).IsChain MayPrecede) :
    (ts.flatMap write).head? ≠ some '\x7b' := by
  cases ts with
  | nil => simp
  | cons t ts =>
    obtain ⟨hliteral, hplaceholder⟩ := (List.isChain_cons_cons.mp hchain).1 rfl
    cases t with
    | placeholder name => exact absurd rfl (hplaceholder name)
    | shell inner => simp [write]
    | literal text =>
      obtain ⟨c, rfl⟩ := exists_char (hsingle _ (List.mem_cons_self ..))
      have hc : c ≠ '\x7b' := fun hc => hliteral (hc ▸ rfl)
      simp only [List.flatMap_cons, write, List.flatMap_nil, List.append_nil, writeChar]
      split <;> simpa using hc

/-- **A token is read as it has been written**, whatever follows it: only after a dollar sign it
must not be an opening brace. -/
theorem pieces_write {t : Segment} (hsingle : t.tokens = [t]) (hvalid : t.Valid)
    {rest : List Char} (hrest : t = literal ['$'] → rest.head? ≠ some '\x7b') :
    pieces (t.write ++ rest) = t.piece :: pieces rest := by
  cases t with
  | placeholder name =>
    have hnext := next_placeholder hvalid rest
    rw [write, List.cons_append, List.append_assoc, List.singleton_append, pieces, hnext]
    rfl
  | shell inner =>
    have hnext := next_shell hvalid rest
    rw [write, List.cons_append, List.cons_append, List.append_assoc, List.singleton_append,
      pieces, hnext]
    rfl
  | literal text =>
    -- a brace is doubled, and only a dollar sign depends on what follows
    obtain ⟨c, rfl⟩ := exists_char hsingle
    rw [write, List.flatMap_cons, List.flatMap_nil, List.append_nil, writeChar]
    split
    next hbrace =>
      rw [List.cons_append, List.singleton_append, pieces, next_doubled hbrace]
      rfl
    next hplain =>
      obtain ⟨hopen, hclose⟩ := not_or.mp hplain
      have hnext : next c rest = (.literal [c], rest) := by
        by_cases hdollar : c = '$'
        · subst hdollar
          exact next_dollar (hrest rfl)
        · exact next_other hopen hclose hdollar rest
      rw [List.singleton_append, pieces, hnext]
      rfl

/-- **Reading gives the tokens back.** The induction is on the tokens: reading one of them stops
exactly where the next one begins. -/
theorem pieces_tokens {ts : List Segment} (hsingle : ∀ t ∈ ts, t.tokens = [t])
    (hvalid : ∀ t ∈ ts, t.Valid) (hchain : ts.IsChain MayPrecede) :
    pieces (ts.flatMap write) = ts.map piece := by
  induction ts with
  | nil => rw [List.flatMap_nil, pieces, List.map_nil]
  | cons t ts ih =>
    have hrest : t = literal ['$'] → (ts.flatMap write).head? ≠ some '\x7b' := by
      rintro rfl
      exact head?_write_ne (fun t ht => hsingle t (List.mem_cons_of_mem _ ht)) hchain
    rw [List.flatMap_cons, List.map_cons,
      pieces_write (hsingle t (List.mem_cons_self ..)) (hvalid t (List.mem_cons_self ..)) hrest,
      ih (fun t ht => hsingle t (List.mem_cons_of_mem _ ht))
        (fun t ht => hvalid t (List.mem_cons_of_mem _ ht)) hchain.tail]

end Segment

/-! ## Templates -/

/-- The template that is written from segments. -/
def ofSegments (segments : List Segment) : String := String.ofList (segments.flatMap Segment.write)

/-- Whether segments can be written, and no literal dollar sign stands directly before a literal
opening brace or a placeholder. -/
structure Separate (segments : List Segment) : Prop where
  valid : ∀ s ∈ segments, s.Valid
  chain : (segments.flatMap Segment.tokens).IsChain Segment.MayPrecede

/-- A template that is written from segments is read as their tokens. -/
theorem pieces_ofSegments {segments : List Segment} (h : Separate segments) :
    pieces (ofSegments segments).toList =
      (segments.flatMap Segment.tokens).map Segment.piece := by
  have hwrite : segments.flatMap Segment.write =
      (segments.flatMap Segment.tokens).flatMap Segment.write := by
    rw [List.flatMap_assoc]
    exact List.flatMap_congr fun s _ => s.flatMap_write_tokens.symm
  rw [ofSegments, String.toList_ofList, hwrite]
  refine Segment.pieces_tokens (fun t ht => ?_) (fun t ht => ?_) h.chain
  · obtain ⟨s, -, hs⟩ := List.mem_flatMap.mp ht
    exact Segment.tokens_of_mem_tokens hs
  · obtain ⟨s, hmem, hs⟩ := List.mem_flatMap.mp ht
    exact Segment.valid_of_mem_tokens (h.valid s hmem) hs

/-- The names that a written template refers to are those of its segments. -/
theorem names_ofSegments (segments : List Segment) :
    ((segments.flatMap Segment.tokens).map Segment.piece).filterMap Piece.name? =
      segments.filterMap Segment.name? := by
  have hname : Piece.name? ∘ Segment.piece = Segment.name? := rfl
  rw [List.filterMap_map, hname]
  induction segments with
  | nil => rfl
  | cons s segments ih =>
    rw [List.flatMap_cons, List.filterMap_append, ih, Segment.filterMap_name?_tokens,
      List.filterMap_cons]
    cases s.name? <;> rfl

/-- What a written template shows is what its segments show. -/
theorem shown_ofSegments (value : String → Option String) (segments : List Segment) :
    ((segments.flatMap Segment.tokens).map Segment.piece).flatMap (Piece.shown value) =
      segments.flatMap (Segment.shown value) := by
  rw [List.flatMap_map, List.flatMap_assoc]
  exact List.flatMap_congr fun s _ => s.flatMap_shown_tokens value

/-- **Rendering inverts writing.** A template that is written from segments is read token by token
as it has been written, whatever braces meet. If all its names are bound, its text is that of the
segments, with the values as they are; otherwise it is refused for the leftmost name that is not
bound. -/
theorem substitute_segments (recipe : String) (b : Bindings) (segments : List Segment)
    (h : Separate segments) :
    pieces (ofSegments segments).toList = (segments.flatMap Segment.tokens).map Segment.piece ∧
    ((∀ n ∈ segments.filterMap Segment.name?, n ∈ b.keys) →
      Recipe.substitute recipe (ofSegments segments) b =
        .ok (String.ofList (segments.flatMap (Segment.shown b.get?)))) ∧
    ∀ before n after, segments.filterMap Segment.name? = before ++ n :: after →
      (∀ m ∈ before, m ∈ b.keys) → n ∉ b.keys →
      Recipe.substitute recipe (ofSegments segments) b = .error (.unknownParameter recipe n) := by
  have hsubstitute : Recipe.substitute recipe (ofSegments segments) b =
      match (segments.filterMap Segment.name?).find? fun n => (b.get? n).isNone with
      | none => .ok (String.ofList (segments.flatMap (Segment.shown b.get?)))
      | some n => .error (.unknownParameter recipe n) := by
    rw [Recipe.substitute, render, pieces_ofSegments h, renderPieces_eq, names_ofSegments,
      shown_ofSegments]
    split <;> rfl
  have hbound : ∀ n, (b.get? n).isNone = false ↔ n ∈ b.keys := by
    intro n
    rw [Option.isNone_eq_false_iff, ← Registry.contains_iff, Registry.contains]
  refine ⟨pieces_ofSegments h, fun hall => ?_, fun before n after hsplit hbefore hn => ?_⟩
  · have hnone : (segments.filterMap Segment.name?).find? (fun n => (b.get? n).isNone) = none := by
      refine List.find?_eq_none.mpr fun n hn => ?_
      rw [Bool.not_eq_true]
      exact (hbound n).mpr (hall n hn)
    rw [hsubstitute, hnone]
  · have hfirst : (segments.filterMap Segment.name?).find? (fun n => (b.get? n).isNone) =
        some n := by
      refine List.find?_eq_some_iff_append.mpr ⟨?_, before, after, hsplit, fun m hm => ?_⟩
      · exact (Bool.not_eq_false _).mp (mt (hbound n).mp hn)
      · rw [(hbound m).mpr (hbefore m hm)]
        rfl
    rw [hsubstitute, hfirst]

/-- Segments at whose boundaries braces of all kinds meet. -/
def crowded : List Segment :=
  [.literal ['\x7b'], .placeholder ['p'], .literal ['\x7d', '$'], .shell ['w', '\x7b'],
    .literal ['\x7d', '\x7b'], .placeholder ['q']]

/-- Segments that crowd each other are separate all the same. -/
theorem crowded_separate : Separate crowded := by
  constructor
  · intro s hs
    simp only [crowded, List.mem_cons, List.not_mem_nil, or_false] at hs
    rcases hs with rfl | rfl | rfl | rfl | rfl | rfl <;> simp [Segment.Valid, IsName, startsName]
  · simp [crowded, Segment.tokens, Segment.MayPrecede]

/-- Braces and dollars next to each other, read as they were written. -/
theorem substitute_segments_crowded :
    Separate crowded ∧
    ofSegments crowded =
      "\x7b\x7b\x7bp\x7d\x7d\x7d$$\x7bw\x7b\x7d\x7d\x7d\x7b\x7b\x7bq\x7d" ∧
    Recipe.substitute "r" (ofSegments crowded)
        ⟨[("p", "a"), ("q", "\x7bp\x7d")], by decide⟩ =
      .ok "\x7ba\x7d$$\x7bw\x7b\x7d\x7d\x7b\x7bp\x7d" ∧
    Recipe.substitute "r" (ofSegments crowded) ⟨[("p", "a")], by decide⟩ =
      .error (.unknownParameter "r" "q") := by
  refine ⟨crowded_separate, by decide, ?_, ?_⟩
  · have hall := (substitute_segments "r" ⟨[("p", "a"), ("q", "\x7bp\x7d")], by decide⟩ crowded
      crowded_separate).2.1
    exact hall (by decide)
  · have hfirst := (substitute_segments "r" ⟨[("p", "a")], by decide⟩ crowded
      crowded_separate).2.2
    exact hfirst ["p"] "q" [] (by decide) (by decide) (by decide)

end Provision.Template
