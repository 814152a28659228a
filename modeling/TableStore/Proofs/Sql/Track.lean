/-
Parsers that keep all tokens and a position in them.

A parser of the library works on the tokens still to be read, and their end counts as `eof` to it. A `Tracker` has all
tokens before it and stands at one of them. It must not look where no token is; if it does, it has no outcome (`none`).
On its way it keeps a track: where it stands, at which places it has looked, and the number that each item had in its
list when it was begun.

`Follows` compares the two. From wherever a tracker stands, if no `eof` is behind it and one is still to come, it has an
outcome; this is the one that the parser makes of the tokens from there on, and afterwards it stands before what the
parser leaves. What holds of every track that comes about so is `Stands`. Both are kept by `bind`, so that they are
shown for the smallest parsers and for loops only.
-/
import Mathlib.Tactic
import TableStore.Proofs.Cursor
import TableStore.Proofs.Sql.Reads

namespace TableStore

open Cursor (At)

/-- where a parser stands in its tokens, and what it has done on the way, the latest first -/
structure Track where
  place : Nat
  /-- the places at which it has looked -/
  seen : List Nat
  /-- the number of each item that it has begun, within the item's list -/
  begun : List Nat

namespace Track

def start : Track := ⟨0, [], []⟩

def look (track : Track) : Track := { track with seen := track.place :: track.seen }

def forward (track : Track) : Track := { track with place := track.place + 1 }

def beginItem (n : Nat) (track : Track) : Track := { track with begun := n :: track.begun }

end Track

/-- parsers over all tokens and a track; one that looks outside the tokens has no outcome -/
abbrev Tracker := ExceptT QueryError (ReaderT (List Token) (StateT Track Option))

namespace Tracker

variable {α β : Type}

/-- the token at the position -/
def peek : Tracker Token := ExceptT.mk fun tokens track => do
  return (.ok (← tokens[track.place]?), track.look)

/-- pass the token at the position, but never `eof` -/
def advance : Tracker Token := do
  let t ← peek
  unless t = .eof do modify Track.forward
  return t

/-- the next item of a list is begun -/
def beginItem (n : Nat) : Tracker Unit := modify (Track.beginItem n)

/-- pass a token of this kind, if it comes next -/
def accept (kind : Token.Kind) : Tracker Bool := do
  if (← peek).kind = kind then
    let _ ← advance
    return true
  else return false

def expect (kind : Token.Kind) : Tracker Unit := do
  if (← peek).kind = kind then
    let _ ← advance
  else throw (.unexpected kind (← peek).kind)

/-- pass a token of this kind, and take what it carries -/
def payload (kind : Token.Kind) (carried? : Token → Option α) : Tracker α := do
  let t ← peek
  match carried? t with
  | some a =>
    let _ ← advance
    return a
  | none => throw (.unexpected kind t.kind)

/-! ## Runs -/

/-- what a tracker makes of some tokens from where its track stands -/
def on (q : Tracker α) (tokens : List Token) (track : Track) : Option (Except QueryError α × Track) :=
  (q.run.run tokens).run track

section Runs

variable {q : Tracker α} {g : α → Tracker β} {tokens : List Token} {track track' : Track}

theorem on_bind_ok {a : α} (h : q.on tokens track = some (.ok a, track')) :
    (q >>= g).on tokens track = (g a).on tokens track' := by
  show (q.on tokens track).bind _ = _
  rw [h]
  rfl

theorem on_bind_error {e : QueryError} (h : q.on tokens track = some (.error e, track')) :
    (q >>= g).on tokens track = some (.error e, track') := by
  show (q.on tokens track).bind _ = _
  rw [h]
  rfl

theorem on_peek {t : Token} {rest : List Token} (here : At tokens track.place (t :: rest)) :
    peek.on tokens track = some (.ok t, track.look) := by
  show (tokens[track.place]?).bind _ = _
  rw [here.getElem?]
  rfl

theorem on_advance_eof {rest : List Token} (here : At tokens track.place (.eof :: rest)) :
    advance.on tokens track = some (.ok .eof, track.look) := by
  rw [advance, on_bind_ok (on_peek here), if_pos rfl]
  rfl

theorem on_advance {t : Token} {rest : List Token} (here : At tokens track.place (t :: rest)) (ne : t ≠ .eof) :
    advance.on tokens track = some (.ok t, track.look.forward) := by
  rw [advance, on_bind_ok (on_peek here), if_neg ne]
  rfl

end Runs

/-! ## What holds of a track -/

/-- A tracker stands before `rest`. It has passed no `eof`, and one is still to come. It has never gone back between two
looks, nor since the last one, and no item that it has begun was one too many. -/
structure Stands (tokens : List Token) (track : Track) (rest : List Token) : Prop where
  here : At tokens track.place rest
  passed : .eof ∉ tokens.take track.place
  ahead : .eof ∈ rest
  rising : (track.place :: track.seen).Pairwise (· ≥ ·)
  begun : ∀ n ∈ track.begun, n ≤ Parser.maxItems

section Stands

variable {tokens rest : List Token} {track : Track} {t : Token}

theorem stands_start (some_eof : .eof ∈ tokens) : Stands tokens .start tokens where
  here := Cursor.at_drop (Nat.zero_le _)
  passed := List.not_mem_nil
  ahead := some_eof
  rising := List.pairwise_singleton _ _
  begun := by simp [Track.start]

theorem Stands.exists_cons (h : Stands tokens track rest) : ∃ t left, rest = t :: left :=
  List.exists_cons_of_ne_nil (List.ne_nil_of_mem h.ahead)

theorem Stands.look (h : Stands tokens track rest) : Stands tokens track.look rest :=
  { h with
    rising := List.pairwise_cons.2
      ⟨List.forall_mem_cons.2 ⟨Nat.le_refl track.place, (List.pairwise_cons.1 h.rising).1⟩, h.rising⟩ }

theorem Stands.forward (h : Stands tokens track (t :: rest)) (ne : t ≠ .eof) :
    Stands tokens track.forward rest where
  here := h.here.succ
  passed := by
    show .eof ∉ tokens.take (track.place + 1)
    rw [List.take_add_one, h.here.getElem?]
    simpa [ne.symm] using h.passed
  ahead := (List.mem_cons.1 h.ahead).resolve_left ne.symm
  rising := by
    obtain ⟨below, rising⟩ := List.pairwise_cons.1 h.rising
    exact List.pairwise_cons.2 ⟨fun place mem => (below place mem).trans (Nat.le_succ _), rising⟩
  begun := h.begun

theorem Stands.beginItem {n : Nat} (h : Stands tokens track rest) (le : n ≤ Parser.maxItems) :
    Stands tokens (track.beginItem n) rest :=
  { h with begun := List.forall_mem_cons.2 ⟨le, h.begun⟩ }

/-- wherever it has been, no `eof` was behind it, so it was at one of the tokens up to the first one -/
theorem Stands.within (h : Stands tokens track rest) {place : Nat} (mem : place ∈ track.place :: track.seen) :
    place < tokens.length ∧ .eof ∉ tokens.take place ∧ place ≤ tokens.idxOf .eof := by
  have before : place ≤ track.place := by
    obtain ⟨below, -⟩ := List.pairwise_cons.1 h.rising
    rcases List.mem_cons.1 mem with rfl | looked
    · exact Nat.le_refl _
    · exact below place looked
  have passed : .eof ∉ tokens.take place := by
    intro behind
    exact h.passed ((List.take_prefix_take_left before).subset behind)
  have there : .eof ∈ tokens := List.mem_of_mem_drop (h.here.drop.symm ▸ h.ahead)
  have le_eof : place ≤ tokens.idxOf .eof := by
    rwa [List.mem_take_iff_idxOf_lt there, Nat.not_lt] at passed
  exact ⟨le_eof.trans_lt (List.idxOf_lt_length_of_mem there), passed, le_eof⟩

end Stands

/-! ## Trackers and parsers -/

/-- wherever it stands, the tracker has an outcome, which is the parser's, and goes where the parser goes -/
def Follows (q : Tracker α) (p : Parser α) : Prop :=
  ∀ tokens track rest, Stands tokens track rest →
    ∃ track', q.on tokens track = some ((p.on rest).1, track') ∧ Stands tokens track' (p.on rest).2

section Follows

variable {q q' : Tracker α} {p p' : Parser α} {g : α → Tracker β} {f : α → Parser β}

theorem follows_pure (a : α) : Follows (pure a) (pure a) :=
  fun _ track _ stands => ⟨track, rfl, stands⟩

theorem follows_throw (e : QueryError) : Follows (throw e : Tracker α) (throw e) :=
  fun _ track _ stands => ⟨track, rfl, stands⟩

/-- what would come behind an error does not matter -/
theorem follows_throw_bind {γ : Type} (e : QueryError) (k : γ → Tracker α) (k' : γ → Parser α) :
    Follows (throw e >>= k) (throw e >>= k') :=
  fun _ track _ stands => ⟨track, rfl, stands⟩

theorem Follows.bind (h : Follows q p) (h' : ∀ a, Follows (g a) (f a)) : Follows (q >>= g) (p >>= f) := by
  intro tokens track rest stands
  obtain ⟨track', ran, there⟩ := h tokens track rest stands
  rw [Parser.on_bind]
  rcases outcome : p.on rest with ⟨e | a, left⟩
  · rw [outcome] at ran there
    exact ⟨track', on_bind_error ran, there⟩
  · rw [outcome] at ran there
    rw [on_bind_ok ran]
    exact h' a tokens track' left there

theorem Follows.map (h : Follows q p) (k : α → β) : Follows (k <$> q) (k <$> p) := by
  rw [map_eq_pure_bind, map_eq_pure_bind]
  exact h.bind fun a => follows_pure (k a)

theorem Follows.ite {c : Prop} [Decidable c] (yes : Follows q p) (no : Follows q' p') :
    Follows (if c then q else q') (if c then p else p') := by
  by_cases h : c
  · rw [if_pos h, if_pos h]
    exact yes
  · rw [if_neg h, if_neg h]
    exact no

theorem follows_peek : Follows peek Parser.peek := by
  intro tokens track rest stands
  obtain ⟨t, left, rfl⟩ := stands.exists_cons
  exact ⟨track.look, on_peek stands.here, stands.look⟩

/-- a tracker passes a token as a parser does that has looked at it -/
theorem follows_advance : Follows advance (do let t ← Parser.peek; Parser.advance; return t) := by
  intro tokens track rest stands
  obtain ⟨t, left, rfl⟩ := stands.exists_cons
  by_cases eof : t = .eof
  · subst eof
    exact ⟨track.look, on_advance_eof stands.here, stands.look⟩
  · have passes : (do let t ← Parser.peek; Parser.advance; return t : Parser Token).on (t :: left) = (.ok t, left) := by
      cases t <;> first | rfl | exact absurd rfl eof
    rw [passes]
    exact ⟨track.look.forward, on_advance stands.here eof, stands.look.forward eof⟩

theorem Follows.congr (h : Follows q p) (same : ∀ rest, p.on rest = p'.on rest) : Follows q p' := by
  intro tokens track rest stands
  rw [← same]
  exact h tokens track rest stands

/-- which token has been passed does not matter to what comes behind it -/
theorem Follows.past (h : Follows q p) : Follows (do let _ ← advance; q) (do Parser.advance; p) := by
  refine (follows_advance.bind fun _ => h).congr fun rest => ?_
  simp only [bind_assoc, pure_bind]
  rw [Parser.on_bind]
  rfl

theorem follows_accept (kind : Token.Kind) : Follows (accept kind) (Parser.accept kind) :=
  follows_peek.bind fun _ => .ite (follows_pure true).past (follows_pure false)

/-- a token that is not the expected one is looked at once more for the error -/
theorem follows_expect (kind : Token.Kind) : Follows (expect kind) (Parser.expect kind) := by
  intro tokens track rest stands
  obtain ⟨t, left, rfl⟩ := stands.exists_cons
  have asks : (Parser.expect kind).on (t :: left) =
      (if t.kind = kind then Parser.advance else throw (.unexpected kind t.kind) : Parser Unit).on (t :: left) := by
    rw [Parser.expect, Parser.on_bind]
    rfl
  rw [expect, on_bind_ok (on_peek stands.here), asks]
  by_cases found : t.kind = kind
  · rw [if_pos found, if_pos found]
    exact (follows_pure ()).past tokens track.look (t :: left) stands.look
  · rw [if_neg found, if_neg found, on_bind_ok (on_peek stands.look.here)]
    exact ⟨track.look.look, rfl, stands.look.look⟩

/-- a parser that takes what tokens of one kind carry, and refuses the others -/
theorem follows_payload {kind : Token.Kind} {carried? : Token → Option α} {take : Token → Parser α}
    (takes : ∀ t, take t = match carried? t with
      | some a => do
        Parser.advance
        return a
      | none => throw (.unexpected kind t.kind)) :
    Follows (payload kind carried?) (Parser.peek >>= take) := by
  refine follows_peek.bind fun t => ?_
  rw [takes]
  cases carried? t with
  | some a => exact (follows_pure a).past
  | none => exact follows_throw _

theorem follows_beginItem {n : Nat} (le : n ≤ Parser.maxItems) (h : Follows q p) :
    Follows (do beginItem n; q) p := by
  intro tokens track rest stands
  obtain ⟨track', ran, there⟩ := h tokens (track.beginItem n) rest (stands.beginItem le)
  exact ⟨track', ran, there⟩

end Follows
end Tracker
end TableStore
