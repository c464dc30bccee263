import FormulaLang.Proofs.Lexical.Segmentation

/-!
# `Lexical.Recovery` — tokens and errors together are the source

Lexing goes on after an error. Each item, token or error, takes a slice of the source; with its
slice it is a `Reading`. What an item can be is said from its place alone (`ReadAt`): a token fits
and stops there, and where no token does, one character is refused, or a text without its end takes
all that is left. Errors end no line, so they do not disturb the positions of what follows.

- **`lex_partitions`**: the slices of all items are the source, and each item is what can be read at
  its place.
-/

namespace FormulaLang

open Text Lexical

/-- A token or an error, with the slice of the source that it takes. -/
structure Reading where
  item : Except LexError Token
  slice : List Char

/-- The slice as a piece of the source. -/
def Reading.piece (reading : Reading) : Piece where
  category :=
    match reading.item with
    | .ok token => .token token.kind
    | .error (.unexpectedCharacter found _ _) => .stray found
    | .error (.unterminatedString _) => .unterminated
  text := reading.slice

/-! ## What can be read -/

namespace Lexical

/-- No token is read off the source: none that fits stops. -/
def NoToken (source : List Char) : Prop :=
  ∀ kind text rest, text ++ rest = source → Fits kind text → ¬ Stops kind rest

/-- What can be read between the readings `before` and the readings `after`. The position is the one
    that the tokens and errors before have led to. -/
inductive ReadAt (before after : List Reading) : Reading → Prop where
  | token {token : Token}
      (position : token.position = Piece.positionAfter (before.map Reading.piece))
      (fits : Fits token.kind token.text.toList)
      (stops : Stops token.kind (after.flatMap Reading.slice)) :
      ReadAt before after ⟨.ok token, token.text.toList⟩
  | unexpected {found : Char} {position : Position} {context : String}
      (position_eq : position = Piece.positionAfter (before.map Reading.piece))
      (context_eq : context.toList = before.flatMap Reading.slice ++ [found])
      (noToken : NoToken (found :: after.flatMap Reading.slice)) :
      ReadAt before after ⟨.error (.unexpectedCharacter found position context), [found]⟩
  | unterminated {quote : Char} {body : List Char} {position : Position}
      (position_eq : position = Piece.positionAfter (before.map Reading.piece))
      (opens : quote ∈ ['\'', '\"']) (last : after = []) (noToken : NoToken (quote :: body)) :
      ReadAt before after ⟨.error (.unterminatedString position), quote :: body⟩

variable {c : Char} {cs text rest : List Char}

/-- A character is refused alone. -/
theorem first_eq_stray {found : Char} (h : Piece.first c cs = (⟨.stray found, text⟩, rest)) :
    found = c ∧ text = [c] := by
  unfold Piece.first at h
  repeat' split at h
  all_goals cases h
  exact ⟨rfl, rfl⟩

/-- A text without its end begins with a quote and takes all that is left. -/
theorem first_eq_unterminated (h : Piece.first c cs = (⟨.unterminated, text⟩, rest)) :
    c ∈ ['\'', '\"'] ∧ text = c :: cs ∧ rest = [] := by
  unfold Piece.first at h
  repeat' split at h
  all_goals cases h
  rename_i hquote _ _
  exact ⟨isQuote_iff.1 hquote, rfl, rfl⟩

/-- Where a piece is no token, none is read. -/
theorem noToken_of_first {piece : Piece} (h : Piece.first c cs = (piece, rest))
    (hpiece : ∀ kind, piece.category ≠ .token kind) : NoToken (c :: cs) := by
  intro kind text rest' happend hfits hstops
  have htoken := first_eq_token_iff.2 ⟨hfits, hstops, happend⟩
  rw [h] at htoken
  obtain ⟨rfl, -⟩ := Prod.mk.inj htoken
  exact hpiece kind rfl

end Lexical

/-! ## Readings of a source -/

namespace Piece

/-- The pieces with the items that they are, the first one at the given place. -/
def readings (here : Cursor) : List Piece → List Reading
  | [] => []
  | piece :: pieces => ⟨piece.item here, piece.text⟩ :: readings (here.past piece) pieces

theorem length_items (here : Cursor) (pieces : List Piece) :
    (items here pieces).length = pieces.length := by
  induction pieces generalizing here with
  | nil => rfl
  | cons piece pieces ih => rw [items, List.length_cons, ih, List.length_cons]

theorem map_item_readings (here : Cursor) (pieces : List Piece) :
    (readings here pieces).map Reading.item = items here pieces := by
  induction pieces generalizing here with
  | nil => rfl
  | cons piece pieces ih => rw [readings, List.map_cons, ih, items]

theorem piece_reading (here : Cursor) (piece : Piece) :
    Reading.piece ⟨piece.item here, piece.text⟩ = piece := by
  obtain ⟨category, text⟩ := piece
  cases category <;> rfl

theorem map_piece_readings (here : Cursor) (pieces : List Piece) :
    (readings here pieces).map Reading.piece = pieces := by
  induction pieces generalizing here with
  | nil => rfl
  | cons piece pieces ih => rw [readings, List.map_cons, ih, piece_reading]

theorem flatMap_slice_readings (here : Cursor) (pieces : List Piece) :
    (readings here pieces).flatMap Reading.slice = pieces.flatMap Piece.text := by
  have hslice : Reading.slice = fun reading => reading.piece.text := rfl
  rw [hslice, ← List.flatMap_map Reading.piece Piece.text, map_piece_readings]

/-- Readings before, at and after a place are those of the pieces before, at and after it. -/
theorem readings_eq_append_cons {here : Cursor} {pieces : List Piece} {reading : Reading}
    {before after : List Reading} (h : readings here pieces = before ++ reading :: after) :
    ∃ earlier piece later, pieces = earlier ++ piece :: later ∧
      before = readings here earlier ∧
      reading = ⟨piece.item (earlier.foldl Cursor.past here), piece.text⟩ ∧
      after = readings ((earlier.foldl Cursor.past here).past piece) later := by
  induction pieces generalizing here before with
  | nil => simp [readings] at h
  | cons piece pieces ih =>
      rw [readings] at h
      cases before with
      | nil =>
          obtain ⟨rfl, rfl⟩ := List.cons.inj h
          exact ⟨[], piece, pieces, rfl, rfl, rfl, rfl⟩
      | cons first before =>
          obtain ⟨rfl, hrest⟩ := List.cons.inj h
          obtain ⟨earlier, piece', later, rfl, rfl, rfl, rfl⟩ := ih hrest
          exact ⟨piece :: earlier, piece', later, rfl, rfl, rfl, rfl⟩

/-- Each piece is the first one of what is left of the source at its place. -/
theorem first_of_split_eq {cs : List Char} {piece : Piece} {before after : List Piece}
    (h : split cs = before ++ piece :: after) :
    ∃ d ds, first d ds = (piece, after.flatMap Piece.text) := by
  induction before generalizing cs with
  | nil =>
      cases cs with
      | nil => simp at h
      | cons c cs =>
          rw [split_cons] at h
          obtain ⟨hpiece, rfl⟩ := List.cons.inj h
          exact ⟨c, cs, Prod.ext hpiece (flatMap_split _).symm⟩
  | cons b before ih =>
      cases cs with
      | nil => simp at h
      | cons c cs =>
          rw [split_cons] at h
          exact ih (List.cons.inj h).2

theorem text_ne_nil_of_mem_split {cs : List Char} {piece : Piece} (h : piece ∈ split cs) :
    piece.text ≠ [] := by
  obtain ⟨before, after, hsplit⟩ := List.append_of_mem h
  obtain ⟨d, ds, hfirst⟩ := first_of_split_eq hsplit
  have hne := first_text_ne_nil d ds
  rwa [hfirst] at hne

theorem slice_ne_nil_of_mem_readings {here : Cursor} {cs : List Char} {reading : Reading}
    (h : reading ∈ readings here (split cs)) : reading.slice ≠ [] := by
  have hpiece : reading.piece ∈ split cs := by
    rw [← map_piece_readings here (split cs)]
    exact List.mem_map_of_mem h
  exact text_ne_nil_of_mem_split hpiece

theorem before_foldl_past (here : Cursor) (pieces : List Piece) :
    (pieces.foldl Cursor.past here).before =
      (pieces.flatMap Piece.text).reverse ++ here.before := by
  induction pieces generalizing here with
  | nil => rfl
  | cons piece pieces ih => simp [ih, Cursor.past]

/-- What is read at its place is what can be read there. -/
theorem readAt_of_first {before after : List Reading} {earlier : List Piece} {piece : Piece}
    {d : Char} {ds : List Char} (hbefore : before.map Reading.piece = earlier)
    (hfirst : first d ds = (piece, after.flatMap Reading.slice))
    (hafter : ∀ reading ∈ after, reading.slice ≠ []) :
    ReadAt before after ⟨piece.item (earlier.foldl Cursor.past .start), piece.text⟩ := by
  subst hbefore
  have hposition := position_foldl_past (before.map Reading.piece)
  have hsource := first_append d ds
  rw [hfirst] at hsource
  obtain ⟨category, text⟩ := piece
  cases category with
  | token kind =>
      obtain ⟨hfits, hstops⟩ := fits_of_first hfirst
      let token : Token :=
        ⟨kind, String.ofList text, (before.map Reading.piece |>.foldl Cursor.past .start).position⟩
      have htext : token.text.toList = text := String.toList_ofList
      have hread : ReadAt before after ⟨.ok token, token.text.toList⟩ :=
        .token hposition (by rwa [htext]) hstops
      rwa [htext] at hread
  | stray found =>
      obtain ⟨rfl, rfl⟩ := first_eq_stray hfirst
      have hnone := noToken_of_first hfirst (fun _ => by simp)
      rw [← hsource] at hnone
      refine .unexpected hposition ?_ hnone
      rw [before_foldl_past]
      simp [Cursor.start, List.flatMap_map, Reading.piece]
  | unterminated =>
      obtain ⟨hquote, rfl, hrest⟩ := first_eq_unterminated hfirst
      have hnone := noToken_of_first hfirst (fun _ => by simp)
      refine .unterminated hposition hquote ?_ hnone
      rw [List.eq_nil_iff_forall_not_mem]
      intro reading hmem
      exact hafter reading hmem (List.flatMap_eq_nil_iff.1 hrest reading hmem)

/-- Every reading of a source is what can be read at its place. -/
theorem readAt_of_readings_eq {cs : List Char} {before after : List Reading} {reading : Reading}
    (h : readings .start (split cs) = before ++ reading :: after) :
    ReadAt before after reading := by
  have hne : ∀ later ∈ after, later.slice ≠ [] := by
    intro later hmem
    have hreading : later ∈ readings .start (split cs) := by
      rw [h]
      exact List.mem_append_right _ (List.mem_cons_of_mem _ hmem)
    exact slice_ne_nil_of_mem_readings hreading
  obtain ⟨earlier, piece, later, hpieces, rfl, rfl, rfl⟩ := readings_eq_append_cons h
  obtain ⟨d, ds, hfirst⟩ := first_of_split_eq hpieces
  rw [← flatMap_slice_readings] at hfirst
  exact readAt_of_first (map_piece_readings _ _) hfirst hne

end Piece

/-! ## The first error -/

theorem mapM_id_eq_error_iff {ε α : Type} {items : List (Except ε α)} {e : ε} :
    items.mapM id = .error e ↔
      ∃ (as : List α) (after : _), items = as.map .ok ++ .error e :: after := by
  induction items with
  | nil => simp [pure, Except.pure]
  | cons item items ih =>
      rw [List.mapM_cons]
      cases item with
      | error e' =>
          show Except.error e' = .error e ↔ _
          constructor
          · rintro ⟨⟩
            exact ⟨[], items, rfl⟩
          · rintro ⟨as, after, h⟩
            cases as with
            | nil => rw [(Except.error.inj (List.cons.inj h).1)]
            | cons a as => cases (List.cons.inj h).1
      | ok a =>
          show ((items.mapM id).bind fun as => .ok (a :: as)) = .error e ↔ _
          have hrest : ((items.mapM id).bind fun as => .ok (a :: as)) = .error e ↔
              items.mapM id = .error e := by
            cases items.mapM id <;> simp [Except.bind]
          rw [hrest, ih]
          constructor
          · rintro ⟨as, after, rfl⟩
            exact ⟨a :: as, after, rfl⟩
          · rintro ⟨as, after, h⟩
            cases as with
            | nil => cases (List.cons.inj h).1
            | cons b as => exact ⟨as, after, (List.cons.inj h).2⟩

/-- **Lexing loses and repeats nothing, and goes on after errors.** The items of a source, of which
    there are at most as many as characters, take slices that are not empty and together are the
    source; each is what can be read at its place. Tokenizing returns all items if they are tokens,
    and else the first error among them. -/
theorem lex_partitions (source : String) :
    (∃ readings : List Reading, readings.map Reading.item = lex source ∧
      readings.flatMap Reading.slice = source.toList ∧
      (∀ reading ∈ readings, reading.slice ≠ []) ∧
      ∀ before reading after, readings = before ++ reading :: after →
        ReadAt before after reading) ∧
    (lex source).length ≤ source.length ∧
    (∀ tokens, tokenize source = .ok tokens ↔ lex source = tokens.map .ok) ∧
    ∀ error, tokenize source = .error error ↔
      ∃ (tokens : List Token) (after : _),
        lex source = tokens.map .ok ++ .error error :: after := by
  have hlex := Piece.map_item_readings .start (Piece.split source.toList)
  have hsource := Piece.flatMap_slice_readings .start (Piece.split source.toList)
  refine ⟨⟨_, hlex, hsource.trans (Piece.flatMap_split _), ?_, ?_⟩, ?_, ?_, ?_⟩
  · intro reading
    exact Piece.slice_ne_nil_of_mem_readings
  · intro before reading after
    exact Piece.readAt_of_readings_eq
  · calc (lex source).length
        = (Piece.split source.toList).length := Piece.length_items _ _
      _ ≤ source.toList.length := Piece.length_split_le _
      _ = source.length := String.length_toList
  · intro tokens
    exact mapM_id_eq_ok_iff
  · intro error
    exact mapM_id_eq_error_iff

end FormulaLang
