import Acceptor.Stream.Source

/-!
# Laws of sources

How bytes are split into reads makes no difference to a text: bytes that can be decoded deliver its
lines and do not fail, in whatever reads they come (`Source.ofReads_of_decode`).  A read that cannot
be decoded takes nothing back: it ends the source behind the lines that the reads before it have
completed, whatever would come after it (`Source.ofReads_of_error`).  `LikeFile` lists the reads
that are as good as those of a file.
-/

namespace Acceptor

variable {bytes : Bytes} {reads front more : List Bytes} {t : Text} {e : DecodeError}

namespace Utf8

variable {p q p' : Progress} {b : UInt8}

theorem decode_eq_ok_iff :
    decode bytes = .ok t ↔ ∃ p, scan bytes = .ok p ∧ p.pending = none ∧ p.text = t := by
  rw [decode]
  cases scan bytes with
  | error e => simp [bind, Except.bind]
  | ok p => cases hpending : p.pending <;> simp [bind, Except.bind, hpending]

/-! ## Positions

Positions are for errors only. -/

/-- The same has been read, by whatever positions. -/
structure Progress.Agrees (p q : Progress) : Prop where
  reversed : p.reversed = q.reversed
  pending : p.pending = q.pending

theorem Progress.begin_agrees (h : p.Agrees q) (hbegin : p.begin b = .ok p') :
    ∃ q', q.begin b = .ok q' ∧ p'.Agrees q' := by
  rw [begin, ← h.reversed]
  rw [begin] at hbegin
  cases hstart : start b with
  | misfit =>
      rw [hstart] at hbegin
      cases hbegin
  | whole c | opened o =>
      rw [hstart] at hbegin
      cases hbegin
      exact ⟨_, rfl, rfl, rfl⟩

theorem Progress.extend_agrees {o : Opened} (h : p.Agrees q) (hextend : p.extend o b = .ok p') :
    ∃ q', q.extend o b = .ok q' ∧ p'.Agrees q' := by
  rw [extend, ← h.reversed]
  rw [extend] at hextend
  by_cases hfits : o.low ≤ b.toNat ∧ b.toNat ≤ o.high
  · rw [if_pos hfits] at hextend ⊢
    cases hdue : o.due with
    | zero | succ due =>
        simp only [hdue] at hextend ⊢
        cases hextend
        exact ⟨_, rfl, rfl, rfl⟩
  · rw [if_neg hfits] at hextend ⊢
    split at hextend
    · next hsurrogate =>
        cases hextend
        exact ⟨_, if_pos hsurrogate, rfl, rfl⟩
    · cases hextend

theorem step_agrees (h : p.Agrees q) (hstep : step p b = .ok p') :
    ∃ q', step q b = .ok q' ∧ p'.Agrees q' := by
  rw [step, ← h.pending]
  rw [step] at hstep
  cases hpending : p.pending with
  | none =>
      rw [hpending] at hstep
      exact Progress.begin_agrees h hstep
  | some pending =>
      rw [hpending] at hstep
      cases pending with
      | opened o => exact Progress.extend_agrees h hstep
      | surrogate => cases hstep

theorem foldlM_step_agrees (h : p.Agrees q) (hfold : bytes.foldlM step p = .ok p') :
    ∃ q', bytes.foldlM step q = .ok q' ∧ p'.Agrees q' := by
  induction bytes generalizing p q with
  | nil =>
      cases hfold
      exact ⟨q, rfl, h⟩
  | cons b bytes ih =>
      rw [List.foldlM_cons] at hfold
      cases hstep : step p b with
      | error e =>
          rw [hstep] at hfold
          cases hfold
      | ok r =>
          rw [hstep] at hfold
          obtain ⟨s, hs, hrs⟩ := step_agrees h hstep
          obtain ⟨q', hq', hpq⟩ := ih hrs hfold
          exact ⟨q', by rw [List.foldlM_cons, hs]; exact hq', hpq⟩

end Utf8

namespace Source

open Utf8

variable {p q p' : Progress}

/-! ## Splitting -/

/-- The reads of a file are its bytes. -/
theorem flatten_readsOf (bytes : Bytes) : (readsOf bytes).flatten = bytes := by
  have htake : ∀ n, ((List.range n).map fun i ↦ (bytes.drop (i * readSize)).take readSize).flatten =
      bytes.take (n * readSize) := by
    intro n
    induction n with
    | zero => simp
    | succ n ih =>
        rw [List.range_succ, List.map_append, List.flatten_append, ih, Nat.succ_mul, List.take_add]
        simp
  rw [readsOf, htake, List.take_of_length_le]
  have hpositive : 0 < readSize := by decide
  have hlt := Nat.lt_mul_div_succ bytes.length hpositive
  rw [Nat.mul_comm] at hlt
  exact Nat.le_of_lt hlt

/-- Reads that can be decoded together are decoded one by one. -/
theorem continued_of_foldlM (h : p.Agrees q) (hfold : reads.flatten.foldlM step p = .ok p')
    (whole : p'.pending = none) : continued q reads = ofText (Text.normalizeEnds p'.text) := by
  induction reads generalizing p q with
  | nil =>
      cases hfold
      have hnone : q.pending = none := h.pending.symm.trans whole
      have htext : q.text = p'.text := congrArg List.reverse h.reversed.symm
      rw [continued, hnone, htext]
  | cons bytes more ih =>
      rw [List.flatten_cons, List.foldlM_append] at hfold
      cases hfirst : bytes.foldlM step p with
      | error e =>
          rw [hfirst] at hfold
          cases hfold
      | ok r =>
          rw [hfirst] at hfold
          have hstart : p.Agrees { q with position := q.waiting } := ⟨h.reversed, h.pending⟩
          obtain ⟨s, hs, hrs⟩ := foldlM_step_agrees hstart hfirst
          rw [continued, Progress.read, hs]
          exact ih hrs hfold

/-- Bytes that are a text deliver its lines, in whatever reads they come. -/
theorem ofReads_of_decode (h : decode reads.flatten = .ok t) :
    ofReads reads = ofText (Text.normalizeEnds t) := by
  obtain ⟨p, hscan, whole, rfl⟩ := decode_eq_ok_iff.1 h
  exact continued_of_foldlM ⟨rfl, rfl⟩ hscan whole

/-! ## Faults -/

theorem continued_append (h : front.foldlM Progress.read p = .ok q) (more : List Bytes) :
    continued p (front ++ more) = continued q more := by
  induction front generalizing p with
  | nil =>
      cases h
      rfl
  | cons bytes front ih =>
      rw [List.foldlM_cons] at h
      cases hread : p.read bytes with
      | error e =>
          rw [hread] at h
          cases h
      | ok r =>
          rw [hread] at h
          rw [List.cons_append, continued, hread]
          exact ih h

/-- A read that cannot be decoded ends the source, behind the lines that the reads before it have
completed. -/
theorem ofReads_of_error (h : front.foldlM Progress.read .initial = .ok p)
    (fault : p.read bytes = .error e) (more : List Bytes) :
    ofReads (front ++ bytes :: more) = broken p e := by
  rw [ofReads, continued_append h, continued, fault]

-- The second read begins in the middle of a character, which its first byte does not go on with.
example :
    let source := ofReads [[0x61, 0x0a, 0x62, 0x0d, 0xc3], [0x0a, 0x63]]
    source.lines = ["a\n".toList] ∧
      source.fault = some ⟨.utf8, 0xc3, 0, 1, .continuationByte⟩ := by
  decide +kernel

/-- A first read that is no text leaves no line. -/
theorem ofReads_of_scan_error (h : scan bytes = .error e) (more : List Bytes) :
    ofReads (bytes :: more) = broken .initial e := by
  have hread : Progress.initial.read bytes = .error e := h
  rw [ofReads, continued, hread]

/-! ## Reads like those of a file -/

/-- Reads of some bytes that make no difference to a file with these bytes: they are those of the
file, or the bytes are a text, or the first read is enough to see that they are none. -/
inductive LikeFile (bytes : Bytes) : List Bytes → Prop
  | file : LikeFile bytes (readsOf bytes)
  | text (reads : List Bytes) (t : Text) (whole : reads.flatten = bytes)
      (decodes : decode bytes = .ok t) : LikeFile bytes reads
  | misfit (first : Bytes) (more : List Bytes) (e : DecodeError)
      (whole : (first :: more).flatten = bytes) (small : first.length ≤ readSize)
      (fault : scan first = .error e) : LikeFile bytes (first :: more)

theorem scan_append_of_error (h : scan bytes = .error e) (more : Bytes) :
    scan (bytes ++ more) = .error e := by
  rw [scan, List.foldlM_append, ← scan, h]
  rfl

theorem exists_readsOf_eq_cons (bytes : Bytes) :
    ∃ more, readsOf bytes = bytes.take readSize :: more := by
  rw [readsOf, List.range_succ_eq_map, List.map_cons, Nat.zero_mul, List.drop_zero]
  exact ⟨_, rfl⟩

theorem LikeFile.ofReads_eq (h : LikeFile bytes reads) :
    ofReads reads = ofReads (readsOf bytes) := by
  cases h with
  | file => rfl
  | text _ t whole decodes =>
      rw [ofReads_of_decode (whole ▸ decodes), ofReads_of_decode]
      rwa [flatten_readsOf]
  | misfit first more e whole small fault =>
      obtain ⟨others, hothers⟩ := exists_readsOf_eq_cons bytes
      have htake : bytes.take readSize = first ++ more.flatten.take (readSize - first.length) := by
        rw [← whole, List.flatten_cons, List.take_append, List.take_of_length_le small]
      have hfault : scan (bytes.take readSize) = .error e := by
        rw [htake]
        exact scan_append_of_error fault _
      rw [hothers, ofReads_of_scan_error fault, ofReads_of_scan_error hfault]

end Source

end Acceptor
