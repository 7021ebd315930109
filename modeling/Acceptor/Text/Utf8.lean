import Acceptor.Text.Encoding

/-!
# UTF-8

UTF-8 is read by a machine that takes one byte at a time and remembers the character it is in the
middle of, so that a text may also be read up to an incomplete character at its end, and go on from
there when more bytes come.  The range of an error is the longest good beginning of a character: the
first byte that does not fit is not part of it.  Reading gives back every text that was written.
-/

namespace Acceptor

namespace Utf8

/-- The beginning of a character: its bytes so far, their value, how many bytes are due after
the next one, and the range that the next one must be in. -/
structure Opened where
  first : UInt8
  others : Bytes
  value : Nat
  due : Nat
  low : Nat
  high : Nat
deriving DecidableEq, Repr

def Opened.bytes (o : Opened) : Bytes := o.first :: o.others

inductive Start where
  | whole (c : Char)
  | opened (o : Opened)
  | misfit
deriving DecidableEq, Repr

/-- What a first byte announces.  The ranges after E0, ED, F0 and F4 keep out longer spellings than
needed, surrogates and numbers above the last code point. -/
def start (b : UInt8) : Start :=
  let n := b.toNat
  if n < 0x80 then .whole (Char.ofNat n)
  else if n < 0xc2 then .misfit
  else if n < 0xe0 then .opened ⟨b, [], n - 0xc0, 0, 0x80, 0xbf⟩
  else if n < 0xf0 then
    .opened ⟨b, [], n - 0xe0, 1, if n = 0xe0 then 0xa0 else 0x80, if n = 0xed then 0x9f else 0xbf⟩
  else if n < 0xf5 then
    .opened ⟨b, [], n - 0xf0, 2, if n = 0xf0 then 0x90 else 0x80, if n = 0xf4 then 0x8f else 0xbf⟩
  else .misfit

/-- What the reading is in the middle of.  The first two bytes of a surrogate begin no character,
but that is only said when a third byte or the end of the bytes has come. -/
inductive Pending where
  | opened (o : Opened)
  | surrogate
deriving DecidableEq, Repr

def surrogateStart : UInt8 := 0xed

/-- The number of bytes that are waiting. -/
def Pending.width : Pending → Nat
  | .opened o => o.bytes.length
  | .surrogate => 2

/-- The error when no more bytes come, counted from a given position of the first waiting byte. -/
def Pending.unfinished (position : Nat) : Pending → DecodeError
  | .opened o => ⟨.utf8, o.first, position, o.bytes.length, .endOfData⟩
  | .surrogate => ⟨.utf8, surrogateStart, position, 1, .continuationByte⟩

/-- How far a text has been read: its characters in reverse, the number of bytes, and what the
reading is in the middle of. -/
structure Progress where
  reversed : Text
  position : Nat
  pending : Option Pending
deriving DecidableEq, Repr

def Progress.initial : Progress := ⟨[], 0, none⟩

def Progress.text (p : Progress) : Text := p.reversed.reverse

/-- One more byte when no character is begun. -/
def Progress.begin (p : Progress) (b : UInt8) : Except DecodeError Progress :=
  match start b with
  | .whole c => .ok ⟨c :: p.reversed, p.position + 1, none⟩
  | .opened o => .ok ⟨p.reversed, p.position + 1, some (.opened o)⟩
  | .misfit => .error ⟨.utf8, b, p.position, 1, .startByte⟩

/-- One more byte of a character that is begun. -/
def Progress.extend (p : Progress) (o : Opened) (b : UInt8) : Except DecodeError Progress :=
  if o.low ≤ b.toNat ∧ b.toNat ≤ o.high then
    let value := o.value * 64 + (b.toNat - 0x80)
    match o.due with
    | 0 => .ok ⟨Char.ofNat value :: p.reversed, p.position + 1, none⟩
    | due + 1 =>
        let o := ⟨o.first, o.others ++ [b], value, due, 0x80, 0xbf⟩
        .ok ⟨p.reversed, p.position + 1, some (.opened o)⟩
  else if o.bytes = [surrogateStart] ∧ 0xa0 ≤ b.toNat ∧ b.toNat ≤ 0xbf then
    .ok ⟨p.reversed, p.position + 1, some .surrogate⟩
  else
    let width := o.bytes.length
    .error ⟨.utf8, o.first, p.position - width, width, .continuationByte⟩

def step (p : Progress) (b : UInt8) : Except DecodeError Progress :=
  match p.pending with
  | none => p.begin b
  | some (.opened o) => p.extend o b
  | some .surrogate => .error (Pending.surrogate.unfinished (p.position - 2))

/-- Reading up to the end of the bytes, which may be in the middle of a character. -/
def scan (bytes : Bytes) : Except DecodeError Progress := bytes.foldlM step .initial

/-- The number of bytes that are waiting for more. -/
def Progress.waiting (p : Progress) : Nat := p.pending.elim 0 Pending.width

/-- Going on with more bytes.  An error counts from the first of them, or from the first byte that
was waiting for them. -/
def Progress.read (p : Progress) (bytes : Bytes) : Except DecodeError Progress :=
  bytes.foldlM step { p with position := p.waiting }

def decode (bytes : Bytes) : Except DecodeError Text := do
  let p ← scan bytes
  match p.pending with
  | none => .ok p.text
  | some w => .error (w.unfinished (p.position - w.width))

def encode (t : Text) : Bytes := t.flatMap String.utf8EncodeChar

/-! ## Reading what was written

What follows says how the machine moves on the bytes of one character, by the number of bytes that
the character takes, and then that no text is lost in writing it. -/

theorem toNat_ofNat {n : Nat} (h : n < 256) : (UInt8.ofNat n).toNat = n := by
  simp
  omega

theorem start_two {k : Nat} (hl : 2 ≤ k) (hh : k < 0x20) :
    start (UInt8.ofNat (k + 0xc0)) =
      .opened ⟨UInt8.ofNat (k + 0xc0), [], k, 0, 0x80, 0xbf⟩ := by
  have hb := toNat_ofNat (show k + 0xc0 < 256 by omega)
  simp only [start, hb]
  rw [if_neg (by omega), if_neg (by omega), if_pos (by omega), Nat.add_sub_cancel]

theorem start_three {k : Nat} (hh : k < 0x10) :
    start (UInt8.ofNat (k + 0xe0)) = .opened ⟨UInt8.ofNat (k + 0xe0), [], k, 1,
      if k = 0 then 0xa0 else 0x80, if k = 0xd then 0x9f else 0xbf⟩ := by
  have hb := toNat_ofNat (show k + 0xe0 < 256 by omega)
  simp only [start, hb]
  rw [if_neg (by omega), if_neg (by omega), if_neg (by omega), if_pos (by omega)]
  simp

theorem start_four {k : Nat} (hh : k < 5) :
    start (UInt8.ofNat (k + 0xf0)) = .opened ⟨UInt8.ofNat (k + 0xf0), [], k, 2,
      if k = 0 then 0x90 else 0x80, if k = 4 then 0x8f else 0xbf⟩ := by
  have hb := toNat_ofNat (show k + 0xf0 < 256 by omega)
  simp only [start, hb]
  rw [if_neg (by omega), if_neg (by omega), if_neg (by omega), if_neg (by omega),
    if_pos (by omega)]
  simp

theorem step_whole {p : Progress} (h : p.pending = none) {n : Nat} (hn : n < 0x80) :
    step p (UInt8.ofNat n) = .ok ⟨Char.ofNat n :: p.reversed, p.position + 1, none⟩ := by
  have hb := toNat_ofNat (show n < 256 by omega)
  simp [step, h, Progress.begin, start, hb, hn]

theorem step_opened {p : Progress} (h : p.pending = none) {b : UInt8} {o : Opened}
    (ho : start b = .opened o) :
    step p b = .ok ⟨p.reversed, p.position + 1, some (.opened o)⟩ := by
  simp [step, h, Progress.begin, ho]

theorem step_last {p : Progress} {o : Opened} (h : p.pending = some (.opened o))
    (hd : o.due = 0) {k : Nat} (hk : k < 0x40) (hl : o.low ≤ k + 0x80) (hh : k + 0x80 ≤ o.high) :
    step p (UInt8.ofNat (k + 0x80)) =
      .ok ⟨Char.ofNat (o.value * 64 + k) :: p.reversed, p.position + 1, none⟩ := by
  have hb := toNat_ofNat (show k + 0x80 < 256 by omega)
  simp only [step, h, Progress.extend, hb, hd]
  rw [if_pos ⟨hl, hh⟩, Nat.add_sub_cancel]

theorem step_next {p : Progress} {o : Opened} {due : Nat} (h : p.pending = some (.opened o))
    (hd : o.due = due + 1) {k : Nat} (hk : k < 0x40) (hl : o.low ≤ k + 0x80)
    (hh : k + 0x80 ≤ o.high) :
    step p (UInt8.ofNat (k + 0x80)) = .ok ⟨p.reversed, p.position + 1, some (.opened
      ⟨o.first, o.others ++ [UInt8.ofNat (k + 0x80)], o.value * 64 + k, due, 0x80, 0xbf⟩)⟩ := by
  have hb := toNat_ofNat (show k + 0x80 < 256 by omega)
  simp only [step, h, Progress.extend, hb, hd]
  rw [if_pos ⟨hl, hh⟩, Nat.add_sub_cancel]

theorem foldlM_step_encodeChar {p : Progress} (h : p.pending = none) (c : Char) :
    ∃ position,
      (String.utf8EncodeChar c).foldlM step p = .ok ⟨c :: p.reversed, position, none⟩ := by
  have hv : c.toNat < 0xd800 ∨ 0xdfff < c.toNat ∧ c.toNat < 0x110000 := c.valid
  have hc : c.val.toNat = c.toNat := rfl
  have hid := c.ofNat_toNat
  simp only [String.utf8EncodeChar, hc]
  generalize c.toNat = n at hv hid
  split
  · refine ⟨p.position + 1, ?_⟩
    simp only [List.foldlM_cons, List.foldlM_nil, bind, Except.bind, pure, Except.pure]
    rw [step_whole h (show n < 0x80 by omega), hid]
  split
  · refine ⟨p.position + 1 + 1, ?_⟩
    simp only [List.foldlM_cons, List.foldlM_nil, bind, Except.bind, pure, Except.pure]
    rw [step_opened h (start_two (by omega) (by omega))]
    simp only
    rw [step_last rfl rfl (by omega) (by simp) (by simp; omega)]
    simp only
    rw [show n / 64 % 32 * 64 + n % 64 = n by omega, hid]
  split
  · refine ⟨p.position + 1 + 1 + 1, ?_⟩
    simp only [List.foldlM_cons, List.foldlM_nil, bind, Except.bind, pure, Except.pure]
    rw [step_opened h (start_three (by omega))]
    simp only
    rw [step_next rfl rfl (by omega) (by simp only; split <;> omega)
      (by simp only; split <;> omega)]
    simp only
    rw [step_last rfl rfl (by omega) (by simp) (by simp; omega)]
    simp only
    rw [show (n / 4096 % 16 * 64 + n / 64 % 64) * 64 + n % 64 = n by omega, hid]
  · refine ⟨p.position + 1 + 1 + 1 + 1, ?_⟩
    simp only [List.foldlM_cons, List.foldlM_nil, bind, Except.bind, pure, Except.pure]
    rw [step_opened h (start_four (by omega))]
    simp only
    rw [step_next rfl rfl (by omega) (by simp only; split <;> omega)
      (by simp only; split <;> omega)]
    simp only
    rw [step_next rfl rfl (by omega) (by simp) (by simp; omega)]
    simp only
    rw [step_last rfl rfl (by omega) (by simp) (by simp; omega)]
    simp only
    rw [show ((n / 262144 % 8 * 64 + n / 4096 % 64) * 64 + n / 64 % 64) * 64 + n % 64 = n by omega,
      hid]

theorem foldlM_step_encode {p : Progress} (h : p.pending = none) (t : Text) :
    ∃ position, (encode t).foldlM step p = .ok ⟨t.reverse ++ p.reversed, position, none⟩ := by
  induction t generalizing p with
  | nil =>
      obtain ⟨reversed, position, pending⟩ := p
      subst h
      exact ⟨position, rfl⟩
  | cons c t ih =>
      obtain ⟨position, hc⟩ := foldlM_step_encodeChar h c
      obtain ⟨position', ht⟩ := ih (p := ⟨c :: p.reversed, position, none⟩) rfl
      refine ⟨position', ?_⟩
      rw [encode, List.flatMap_cons, List.foldlM_append, hc]
      simpa [encode, bind, Except.bind] using ht

/-- What is written is read back. -/
theorem decode_encode (t : Text) : decode (encode t) = .ok t := by
  obtain ⟨position, h⟩ := foldlM_step_encode (p := .initial) rfl t
  rw [decode, scan, h]
  simp [bind, Except.bind, Progress.text, Progress.initial]

end Utf8

example : Utf8.decode [0x61, 0xe2, 0x82] = .error ⟨.utf8, 0xe2, 1, 2, .endOfData⟩ := rfl
example : Utf8.decode [0xed, 0xa0, 0x80] = .error ⟨.utf8, 0xed, 0, 1, .continuationByte⟩ := rfl

end Acceptor
