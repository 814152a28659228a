/-
Readers on the bytes that they are meant to read.

A reader frames some bytes as a value if it takes exactly them for it, whatever stands behind them, and if every proper
beginning of them leaves it short of bytes (`Frames`). It refuses some bytes if it fails on them with one certain error,
also whatever stands behind (`Refuses`). Both compose: a sequence frames the bytes of its parts one after the other, and
refuses where a part does whose predecessors frame theirs.

A codec is a reader with a writer (`Codec`): it frames what is written of every value within the caps, refuses what is
written of every other value whose lengths fit into four bytes, and takes for a value nothing but what is written of it.
Texts have a codec (`Codec.text`), and so have lists of what has one (`Codec.list`).
-/
import Mathlib.Tactic
import TableStore.Wire.Stream

namespace TableStore

/-- the stream with only these bytes unread -/
def Stream.leaving (s : Stream) (rest : Bytes) : Stream := { s with unread := rest }

/-- why a read fails that the unread bytes do not satisfy -/
def Stream.shortage (s : Stream) : Error := .network (s.ending.getD .endOfStream)

namespace Wire

variable {α β : Type}

/-! ## Numbers -/

/-- four bytes hold the numbers below this one -/
def numberBound : Nat := 4294967296

theorem ofBytes_number {n : Nat} (small : n < numberBound) : ofBytes (number n) = n := by
  unfold numberBound at small
  simp only [number, ofBytes, List.foldr_cons, List.foldr_nil, Nat.toUInt8_eq, UInt8.toNat_ofNat']
  omega

theorem number_ofBytes {bytes : Bytes} (four : bytes.length = 4) : number (ofBytes bytes) = bytes := by
  obtain ⟨a, b, c, d, rfl⟩ : ∃ a b c d, bytes = [a, b, c, d] := List.length_eq_four.1 four
  have ha := a.toNat_lt
  have hb := b.toNat_lt
  have hc := c.toNat_lt
  have hd := d.toNat_lt
  have byte : ∀ {n : Nat} {x : UInt8}, n % 256 = x.toNat → n.toUInt8 = x := by
    intro n x same
    apply UInt8.toNat_inj.1
    rw [Nat.toUInt8_eq, UInt8.toNat_ofNat', same]
  simp only [number, ofBytes, List.foldr_cons, List.foldr_nil]
  rw [byte (x := a) (by omega), byte (x := b) (by omega), byte (x := c) (by omega), byte (x := d) (by omega)]

/-! ## Readers on what they frame and on what they refuse -/

/-- a reader takes exactly these bytes for a value, and fails for want of more on every proper beginning of them -/
structure Frames (read : Reader α) (bytes : Bytes) (a : α) : Prop where
  whole : ∀ (s : Stream) (tail : Bytes), s.unread = bytes ++ tail → read s = (.ok a, s.leaving tail)
  cut : ∀ s : Stream, s.unread <+: bytes → s.unread ≠ bytes → read s = (.error s.shortage, s.leaving [])

/-- a reader fails with this error on these bytes, whatever stands behind them -/
def Refuses (e : Error) (read : Reader α) (bytes : Bytes) : Prop :=
  ∀ (s : Stream) (tail : Bytes), s.unread = bytes ++ tail → ∃ rest, read s = (.error e, s.leaving rest)

section Sequences

variable {first : Reader α} {next : α → Reader β} {x y : Bytes} {a : α} {b : β} {e : Error}

theorem Frames.pure (b : β) : Frames (Pure.pure b) [] b where
  whole s tail unread := by
    rw [List.nil_append] at unread
    subst unread
    rfl
  cut s beginning ne := absurd (List.prefix_nil.1 beginning) ne

theorem Frames.bind (h : Frames first x a) (h' : Frames (next a) y b) : Frames (first >>= next) (x ++ y) b where
  whole s tail unread := by
    rw [List.append_assoc] at unread
    rw [bind_apply, h.whole s (y ++ tail) unread]
    exact h'.whole _ tail rfl
  cut s beginning ne := by
    rw [bind_apply]
    -- the cut is inside the first part or behind it
    by_cases inside : s.unread <+: x ∧ s.unread ≠ x
    · rw [h.cut s inside.1 inside.2]
    · obtain ⟨z, behind⟩ : x <+: s.unread := by
        rcases List.prefix_or_prefix_of_prefix beginning (List.prefix_append x y) with shorter | longer
        · rw [not_and_not_right.1 inside shorter]
        · exact longer
      rw [h.whole s z behind.symm]
      rw [← behind, List.prefix_append_right_inj] at beginning
      refine h'.cut (s.leaving z) beginning ?_
      rintro rfl
      exact ne behind.symm

/-- what comes last may only make something of the value -/
theorem Frames.bind_pure (h : Frames first x a) (made : next a = Pure.pure b) : Frames (first >>= next) x b := by
  rw [← List.append_nil x]
  apply h.bind
  rw [made]
  exact .pure b

theorem Frames.map (h : Frames first x a) (f : α → β) : Frames (f <$> first) x (f a) := by
  rw [map_eq_pure_bind]
  exact h.bind_pure rfl

theorem Refuses.bind (h : Refuses e first x) : Refuses e (first >>= next) (x ++ y) := by
  intro s tail unread
  rw [List.append_assoc] at unread
  obtain ⟨rest, failed⟩ := h s (y ++ tail) unread
  exact ⟨rest, by rw [bind_apply, failed]⟩

theorem Refuses.map (h : Refuses e first x) (f : α → β) : Refuses e (f <$> first) x := by
  rw [map_eq_pure_bind, ← List.append_nil x]
  exact h.bind

theorem Frames.bind_refuses (h : Frames first x a) (h' : Refuses e (next a) y) :
    Refuses e (first >>= next) (x ++ y) := by
  intro s tail unread
  rw [List.append_assoc] at unread
  rw [bind_apply, h.whole s (y ++ tail) unread]
  exact h' _ tail rfl

/-- a sequence that succeeds is one of two successes -/
theorem bind_eq_ok {s s' : Stream} (h : (first >>= next) s = (.ok b, s')) :
    ∃ a mid, first s = (.ok a, mid) ∧ next a mid = (.ok b, s') := by
  rw [bind_apply] at h
  rcases taken : first s with ⟨e | a, mid⟩
  · rw [taken] at h
    cases h
  · rw [taken] at h
    exact ⟨a, mid, rfl, h⟩

theorem pure_eq_ok {s s' : Stream} {c : α} (h : (Pure.pure a : Reader α) s = (.ok c, s')) : c = a ∧ s' = s := by
  cases h
  exact ⟨rfl, rfl⟩

theorem map_eq_ok {f : α → β} {s s' : Stream} (h : (f <$> first) s = (.ok b, s')) :
    ∃ a, first s = (.ok a, s') ∧ b = f a := by
  rw [map_eq_pure_bind] at h
  obtain ⟨a, mid, taken, made⟩ := bind_eq_ok h
  obtain ⟨rfl, rfl⟩ := pure_eq_ok made
  exact ⟨a, taken, rfl⟩

end Sequences

/-! ## Single reads -/

theorem frames_take (bytes : Bytes) : Frames (take bytes.length) bytes bytes where
  whole s tail unread := by
    simp only [take, unread, List.take_left, List.drop_left, lt_self_iff_false, if_false]
    rfl
  cut s beginning ne := by
    have short : s.unread.length < bytes.length :=
      lt_of_le_of_ne beginning.length_le fun same => ne (beginning.eq_of_length same)
    simp only [take, List.take_of_length_le short.le, List.drop_of_length_le short.le, if_pos short]
    rfl

theorem take_eq_ok {n : Nat} {s s' : Stream} {bytes : Bytes} (h : take n s = (.ok bytes, s')) :
    bytes.length = n ∧ s.unread = bytes ++ s'.unread := by
  by_cases short : (s.unread.take n).length < n
  · simp only [take, if_pos short] at h
    cases h
  · simp only [take, if_neg short] at h
    cases h
    refine ⟨?_, (List.take_append_drop n s.unread).symm⟩
    rw [List.length_take] at short ⊢
    omega

theorem frames_byte (b : UInt8) : Frames readByte [b] b := (frames_take [b]).bind_pure rfl

theorem readByte_eq_ok {s s' : Stream} {b : UInt8} (h : readByte s = (.ok b, s')) : s.unread = b :: s'.unread := by
  obtain ⟨bytes, mid, taken, made⟩ := bind_eq_ok h
  obtain ⟨rfl, rfl⟩ := pure_eq_ok made
  obtain ⟨one, unread⟩ := take_eq_ok taken
  obtain ⟨b, rfl⟩ := List.length_eq_one_iff.1 one
  exact unread

theorem frames_number {n : Nat} (small : n < numberBound) : Frames readNumber (number n) n := by
  refine (frames_take (number n)).bind_pure ?_
  rw [ofBytes_number small]

theorem readNumber_eq_ok {s s' : Stream} {n : Nat} (h : readNumber s = (.ok n, s')) :
    s.unread = number n ++ s'.unread := by
  obtain ⟨bytes, mid, taken, made⟩ := bind_eq_ok h
  obtain ⟨rfl, rfl⟩ := pure_eq_ok made
  obtain ⟨four, unread⟩ := take_eq_ok taken
  rw [number_ofBytes four]
  exact unread

/-! ## Reads that may find nothing -/

section Require

variable {read : Reader (Option α)} {bytes more : Bytes} {a : α} {e : Error}

theorem Frames.require (h : Frames read bytes (some a)) (e : Error) : Frames (require e read) bytes a := h.bind_pure rfl

/-- where a reader finds nothing already at the beginning, the rest does not matter -/
theorem Frames.require_refuses (h : Frames read bytes none) : Refuses e (Wire.require e read) (bytes ++ more) :=
  h.bind_refuses fun s _ _ => ⟨s.unread, rfl⟩

theorem require_eq_ok {s s' : Stream} (h : require e read s = (.ok a, s')) : read s = (.ok (some a), s') := by
  obtain ⟨found, mid, taken, made⟩ := bind_eq_ok h
  cases found with
  | none => cases made
  | some b =>
    obtain ⟨rfl, rfl⟩ := pure_eq_ok made
    exact taken

end Require

/-! ## Codecs -/

/-- a reader of what is written: it frames the values within the caps, refuses the others whose lengths can be written,
and takes no other bytes for a value -/
structure Codec (read : Reader α) (write : α → Bytes) (Sized Fits : α → Prop) (e : Error) : Prop where
  frames : ∀ a, Fits a → Frames read (write a) a
  refuses : ∀ a, Sized a → ¬ Fits a → Refuses e read (write a)
  canonical : ∀ s a s', read s = (.ok a, s') → Fits a ∧ s.unread = write a ++ s'.unread

theorem length_utf8 (t : String) : (Text.utf8 t).length = t.utf8ByteSize := by
  simp [Text.utf8]

theorem Codec.text (e : Error) :
    Codec (require e readText) Wire.text (·.utf8ByteSize < numberBound) (·.utf8ByteSize ≤ maxTextBytes) e where
  frames t fits := by
    have small : t.utf8ByteSize < numberBound := lt_of_le_of_lt fits (by decide)
    have bytes : Frames (take t.utf8ByteSize) (Text.utf8 t) (Text.utf8 t) := by
      have taken := frames_take (Text.utf8 t)
      rwa [length_utf8] at taken
    refine Frames.require ((frames_number small).bind ?_) e
    rw [if_neg (Nat.not_lt.2 fits)]
    refine bytes.bind_pure ?_
    rw [Text.ofUtf8?_utf8]
  refuses t small big := by
    have nothing : Frames readText (number t.utf8ByteSize) none := by
      refine (frames_number small).bind_pure ?_
      rw [if_pos (Nat.lt_of_not_le big)]
    exact nothing.require_refuses
  canonical s t s' h := by
    obtain ⟨n, mid, taken, made⟩ := bind_eq_ok (require_eq_ok h)
    have length := readNumber_eq_ok taken
    split at made
    · cases (pure_eq_ok made).1
    · rename_i fits
      obtain ⟨bytes, mid', taken', made'⟩ := bind_eq_ok made
      obtain ⟨found, rfl⟩ := pure_eq_ok made'
      obtain ⟨rfl, unread⟩ := take_eq_ok taken'
      obtain rfl := Text.eq_utf8_of_ofUtf8? found.symm
      rw [length_utf8] at fits length
      refine ⟨Nat.not_lt.1 fits, ?_⟩
      rw [length, unread, Wire.text, List.append_assoc]

/-! ## Lists -/

section Lists

variable {item : Reader α} {write : α → Bytes} {Sized Fits : α → Prop} {e : Error}

theorem frames_many {as : List α} (h : ∀ a ∈ as, Frames item (write a) a) (before : List α) :
    Frames (manyAfter item as.length before) (as.flatMap write) (before.reverse ++ as) := by
  induction as generalizing before with
  | nil => simpa [manyAfter] using Frames.pure before.reverse
  | cons a as ih =>
    have rest := ih (fun b mem => h b (List.mem_cons_of_mem _ mem)) (a :: before)
    rw [List.reverse_cons, List.append_assoc] at rest
    exact (h a List.mem_cons_self).bind rest

/-- items are refused with the first of them that is -/
theorem refuses_many (h : Codec item write Sized Fits e) {as : List α} (sized : ∀ a ∈ as, Sized a)
    (wrong : ∃ a ∈ as, ¬ Fits a) (before : List α) :
    Refuses e (manyAfter item as.length before) (as.flatMap write) := by
  induction as generalizing before with
  | nil =>
    obtain ⟨a, mem, -⟩ := wrong
    cases mem
  | cons a as ih =>
    by_cases fits : Fits a
    · have later : ∃ b ∈ as, ¬ Fits b := by
        obtain ⟨b, mem, not⟩ := wrong
        rcases List.mem_cons.1 mem with rfl | mem
        · exact absurd fits not
        · exact ⟨b, mem, not⟩
      exact (h.frames a fits).bind_refuses (ih (fun b mem => sized b (List.mem_cons_of_mem _ mem)) later (a :: before))
    · exact (h.refuses a (sized a List.mem_cons_self) fits).bind

theorem many_eq_ok (h : Codec item write Sized Fits e) {n : Nat} {before all : List α} {s s' : Stream}
    (read : manyAfter item n before s = (.ok all, s')) :
    ∃ as, all = before.reverse ++ as ∧ as.length = n ∧ (∀ a ∈ as, Fits a)
      ∧ s.unread = as.flatMap write ++ s'.unread := by
  induction n generalizing before s with
  | zero =>
    obtain ⟨rfl, rfl⟩ := pure_eq_ok read
    exact ⟨[], by simp⟩
  | succ n ih =>
    obtain ⟨a, mid, taken, made⟩ := bind_eq_ok read
    obtain ⟨fits, unread⟩ := h.canonical s a mid taken
    obtain ⟨as, rfl, rfl, all_fit, unread'⟩ := ih made
    refine ⟨a :: as, by simp, rfl, ?_, ?_⟩
    · intro b mem
      rcases List.mem_cons.1 mem with rfl | mem
      · exact fits
      · exact all_fit b mem
    · rw [unread, unread', List.flatMap_cons, List.append_assoc]

theorem frames_count {n : Nat} (fits : n ≤ maxItems) : Frames readCount (number n) (some n) := by
  refine (frames_number (lt_of_le_of_lt fits (by decide))).bind_pure ?_
  rw [if_neg (Nat.not_lt.2 fits)]

theorem frames_count_none {n : Nat} (small : n < numberBound) (big : maxItems < n) :
    Frames readCount (number n) none := by
  refine (frames_number small).bind_pure ?_
  rw [if_pos big]

theorem readCount_eq_ok {s s' : Stream} {n : Nat} (h : readCount s = (.ok (some n), s')) :
    n ≤ maxItems ∧ s.unread = number n ++ s'.unread := by
  obtain ⟨m, mid, taken, made⟩ := bind_eq_ok h
  obtain ⟨found, rfl⟩ := pure_eq_ok made
  split at found
  · cases found
  · rename_i fits
    cases found
    exact ⟨Nat.not_lt.1 fits, readNumber_eq_ok taken⟩

/-- lists of what has a codec have one, with their lengths in front -/
theorem Codec.list (h : Codec item write Sized Fits e) :
    Codec (do manyAfter item (← require e readCount) []) (fun as => number as.length ++ as.flatMap write)
      (fun as => as.length < numberBound ∧ ∀ a ∈ as, Sized a) (fun as => as.length ≤ maxItems ∧ ∀ a ∈ as, Fits a)
      e where
  frames as fits :=
    ((frames_count fits.1).require e).bind (frames_many (fun a mem => h.frames a (fits.2 a mem)) [])
  refuses as sized wrong := by
    by_cases few : as.length ≤ maxItems
    · have item : ∃ a ∈ as, ¬ Fits a := by
        by_contra none
        push Not at none
        exact wrong ⟨few, none⟩
      exact ((frames_count few).require e).bind_refuses (refuses_many h sized.2 item [])
    · have refused : Refuses e (require e readCount) (number as.length ++ []) :=
        (frames_count_none sized.1 (Nat.lt_of_not_le few)).require_refuses
      rw [List.append_nil] at refused
      exact refused.bind
  canonical s as s' read := by
    obtain ⟨n, mid, taken, made⟩ := bind_eq_ok read
    obtain ⟨few, unread⟩ := readCount_eq_ok (require_eq_ok taken)
    obtain ⟨found, rfl, rfl, fits, unread'⟩ := many_eq_ok h made
    refine ⟨⟨few, fits⟩, ?_⟩
    rw [unread, unread', List.append_assoc]

end Lists

end Wire
end TableStore
