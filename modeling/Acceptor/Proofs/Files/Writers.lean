import Mathlib.Data.List.TakeDrop
import Acceptor.Files.Writer

/-!
# Laws of writers

As long as nothing fails, what a writer has been given is what the medium has taken and what waits,
in this order (`Writer.Holds`).  Something fails only when the medium has no room for all of it, and
then the medium is full with the beginning of it (`Writer.Full`), which nothing changes any more.
`Writer.Attempt` says this of each way to move what waits, and by induction of many texts, so a file
ends up with the beginning of what was to be written, as far as there was room (`written_close`),
however much waited where.
-/

namespace Acceptor

variable {m : Medium} {bytes more : Bytes}

/-! ## Media -/

namespace Medium

theorem taken_eq (m : Medium) (bytes : Bytes) :
    m.taken bytes = bytes ∨ ∃ n, m.room = some n ∧ m.taken bytes = bytes.take n := by
  rw [taken]
  cases m.room with
  | none => exact .inl rfl
  | some n => exact .inr ⟨n, rfl, rfl⟩

@[simp] theorem taken_nil (m : Medium) : m.taken [] = [] := by
  rcases m.taken_eq [] with h | ⟨n, -, h⟩ <;> simp [h]

@[simp] theorem kept_nil (m : Medium) : m.kept [] = [] := by
  rw [kept, taken_nil, ite_self]

/-- A medium without room for all bytes is full with the first of them. -/
theorem exists_room_of_ne (h : m.taken bytes ≠ bytes) :
    ∃ n, n < bytes.length ∧ ∀ others, m.taken others = others.take n := by
  rcases m.taken_eq bytes with hall | ⟨n, hroom, htaken⟩
  · exact absurd hall h
  · refine ⟨n, ?_, fun others ↦ by rw [taken, hroom, Option.elim_some]⟩
    rw [htaken, ne_eq, List.take_eq_self_iff] at h
    exact Nat.not_le.1 h

theorem taken_append_of_ne (h : m.taken bytes ≠ bytes) (more : Bytes) :
    m.taken (bytes ++ more) = m.taken bytes := by
  obtain ⟨n, hn, htaken⟩ := exists_room_of_ne h
  rw [htaken, htaken, List.take_append_of_le_length (Nat.le_of_lt hn)]

/-- Nothing more goes on a full medium. -/
theorem taken_taken_append (h : m.taken bytes ≠ bytes) (more : Bytes) :
    m.taken (m.taken bytes ++ more) = m.taken bytes := by
  obtain ⟨n, hn, htaken⟩ := exists_room_of_ne h
  have hlength : n ≤ (bytes.take n).length :=
    Nat.le_of_eq (List.length_take_of_le (Nat.le_of_lt hn)).symm
  rw [htaken, htaken, List.take_append_of_le_length hlength, List.take_take, Nat.min_self]

theorem taken_append_drop (m : Medium) (bytes : Bytes) :
    m.taken bytes ++ bytes.drop (m.taken bytes).length = bytes := by
  rcases m.taken_eq bytes with hall | ⟨n, -, htaken⟩
  · simp [hall]
  · rw [htaken, List.length_take]
    rcases Nat.le_total n bytes.length with h | h
    · rw [Nat.min_eq_left h, List.take_append_drop]
    · simp [Nat.min_eq_right h, List.take_of_length_le h]

theorem taken_taken (m : Medium) (bytes : Bytes) : m.taken (m.taken bytes) = m.taken bytes := by
  by_cases h : m.taken bytes = bytes
  · rw [h, h]
  · simpa using taken_taken_append h []

/-- All bytes are taken exactly when none is left. -/
theorem taken_eq_self_iff : m.taken bytes = bytes ↔ bytes.drop (m.taken bytes).length = [] := by
  constructor
  · intro h
    rw [h, List.drop_length]
  · intro h
    have happend := m.taken_append_drop bytes
    rwa [h, List.append_nil] at happend

end Medium

namespace Writer

variable {w w' : Writer} {x : Except Writer Writer}

/-! ## What a writer has -/

/-- The writer has been given these bytes and none is lost. -/
structure Holds (m : Medium) (w : Writer) (bytes : Bytes) : Prop where
  parts : w.written ++ w.buffer ++ w.pending = bytes
  fits : m.taken w.written = w.written

/-- The medium has no room for these bytes and is full with the first of them. -/
structure Full (m : Medium) (w : Writer) (bytes : Bytes) : Prop where
  written : w.written = m.taken bytes
  exceeds : m.taken bytes ≠ bytes

/-- An attempt to move what waits: it fails only for want of room. -/
inductive Attempt (m : Medium) (bytes : Bytes) : Except Writer Writer → Prop
  | ok (w : Writer) (holds : w.Holds m bytes) : Attempt m bytes (.ok w)
  | error (w : Writer) (full : w.Full m bytes) : Attempt m bytes (.error w)

theorem holds_nil (m : Medium) : ({} : Writer).Holds m [] where
  parts := rfl
  fits := m.taken_nil

theorem Full.append (h : w.Full m bytes) (more : Bytes) : w.Full m (bytes ++ more) where
  written := h.written.trans (m.taken_append_of_ne h.exceeds more).symm
  exceeds := by
    obtain ⟨n, hn, htaken⟩ := Medium.exists_room_of_ne h.exceeds
    rw [htaken, ne_eq, List.take_eq_self_iff, List.length_append]
    omega

theorem Full.taken_append (h : w.Full m bytes) (more : Bytes) :
    m.taken (w.written ++ more) = w.written := by
  rw [h.written, Medium.taken_taken_append h.exceeds]

theorem Attempt.bind {f : Writer → Except Writer Writer} (h : Attempt m bytes x) (more : Bytes)
    (hf : ∀ w, w.Holds m bytes → Attempt m (bytes ++ more) (f w)) :
    Attempt m (bytes ++ more) (x >>= f) := by
  cases h with
  | ok w holds => exact hf w holds
  | error w full => exact .error w (full.append more)

/-! ## Moving what waits -/

section Moves

theorem attempt_drain (h : w.Holds m bytes) : Attempt m bytes (w.drain m) := by
  have hall := m.taken_append_drop (w.written ++ w.buffer)
  rw [drain]
  split
  · exact .ok _ ⟨by rw [hall, h.parts], m.taken_taken _⟩
  · next hleft =>
      rw [← Medium.taken_eq_self_iff] at hleft
      rw [← h.parts]
      exact .error _ (Full.append ⟨rfl, hleft⟩ w.pending)

theorem of_drain_eq_ok (h : w.drain m = .ok w') : w'.buffer = [] ∧ w'.pending = w.pending := by
  rw [drain] at h
  split at h
  · next hleft =>
      obtain rfl := Except.ok.inj h
      exact ⟨hleft, rfl⟩
  · cases h

/-- With nothing that waits as text, more bytes go behind those in the block or to the medium. -/
theorem attempt_store (h : w.Holds m bytes) (hpending : w.pending = []) (more : Bytes) :
    Attempt m (bytes ++ more) (w.store m more) := by
  rw [store]
  split
  · refine .ok _ ⟨?_, h.fits⟩
    simp [← h.parts, hpending]
  · have hattempt := attempt_drain h
    cases hdrain : w.drain m with
    | error w₁ =>
        rw [hdrain] at hattempt
        cases hattempt with
        | error _ full => exact .error _ (full.append more)
    | ok w₁ =>
        rw [hdrain] at hattempt
        cases hattempt with
        | ok _ holds =>
            obtain ⟨hbuffer, hpending₁⟩ := of_drain_eq_ok hdrain
            -- all that was there before is on the medium now
            have hwritten : w₁.written = bytes := by
              simpa [hbuffer, hpending₁, hpending] using holds.parts
            have hall := m.taken_append_drop (w₁.written ++ more)
            simp only [bind, Except.bind]
            split
            · refine .ok _ ⟨?_, holds.fits⟩
              simp [hwritten, hpending₁, hpending]
            split
            · refine .ok _ ⟨?_, m.taken_taken _⟩
              rw [hall, hpending₁, hpending, List.append_nil, hwritten]
            · next hblock hleft =>
                refine .error _ ⟨congrArg (m.taken <| · ++ more) hwritten, fun htaken ↦ hleft ?_⟩
                rw [hwritten, Medium.taken_eq_self_iff.1 htaken]
                exact Nat.zero_le _

theorem pending_of_store (h : w.store m more = .ok w') : w'.pending = w.pending := by
  rw [store] at h
  split at h
  · obtain rfl := Except.ok.inj h
    rfl
  · cases hdrain : w.drain m with
    | error w₁ =>
        rw [hdrain] at h
        cases h
    | ok w₁ =>
        rw [hdrain] at h
        simp only [bind, Except.bind] at h
        split at h
        · obtain rfl := Except.ok.inj h
          exact (of_drain_eq_ok hdrain).2
        split at h
        · obtain rfl := Except.ok.inj h
          exact (of_drain_eq_ok hdrain).2
        · cases h

theorem attempt_pass (h : w.Holds m bytes) : Attempt m bytes (w.pass m) := by
  have holds : Holds m { w with pending := [] } (w.written ++ w.buffer) :=
    ⟨List.append_nil _, h.fits⟩
  rw [← h.parts]
  exact attempt_store holds rfl w.pending

theorem pending_of_pass (h : w.pass m = .ok w') : w'.pending = [] := pending_of_store h

/-- More text waits behind the text that does, and all of it is handed on when that is enough. -/
theorem attempt_wait (h : w.Holds m bytes) (more : Bytes) :
    let w := { w with pending := w.pending ++ more }
    Attempt m (bytes ++ more) (if chunkSize ≤ w.pending.length then w.pass m else .ok w) := by
  have holds : Holds m { w with pending := w.pending ++ more } (bytes ++ more) :=
    ⟨by rw [← h.parts, List.append_assoc _ w.pending], h.fits⟩
  intro w
  split
  · exact attempt_pass holds
  · exact .ok w holds

theorem attempt_write (h : w.Holds m bytes) (t : Text) :
    Attempt m (bytes ++ Utf8.encode t) (w.write m t) := by
  rw [write]
  split
  · exact (attempt_pass h).bind _ fun w₁ holds ↦ attempt_wait holds _
  · exact attempt_wait h _

/-- Texts one after the other are one text, up to the first that meets a failure. -/
theorem attempt_writeAll (h : w.Holds m bytes) (ts : List Text) :
    Attempt m (bytes ++ Utf8.encode ts.flatten) (w.writeAll m ts) := by
  induction ts generalizing w bytes with
  | nil => exact .ok w (by simpa [Utf8.encode] using h)
  | cons t ts ih =>
      rw [List.flatten_cons, Utf8.encode, List.flatMap_append, ← List.append_assoc]
      exact (attempt_write h t).bind _ fun w₁ holds ↦ ih holds

theorem attempt_flush (h : w.Holds m bytes) : Attempt m bytes (w.flush m) := by
  rw [← List.append_nil bytes]
  refine (attempt_pass h).bind [] fun w₁ holds ↦ ?_
  rw [List.append_nil]
  exact attempt_drain holds

end Moves

/-! ## Closing -/

section Closing

theorem flush_eq_ok_iff :
    w.flush m = .ok w' ↔ ∃ w₁, w.pass m = .ok w₁ ∧ w₁.drain m = .ok w' := by
  rw [flush]
  cases w.pass m <;> simp [bind, Except.bind]

/-- Closing a writer is flushing it, which is tried to the end when it fails. -/
theorem close_eq_ok_iff : w.close m = .ok w' ↔ w.flush m = .ok w' := by
  rw [close, flush]
  cases w.pass m <;> simp [bind, Except.bind]

/-- Nothing waits behind a flush that has not failed. -/
theorem written_of_flush (h : w.Holds m bytes) (hflush : w.flush m = .ok w') :
    w'.written = bytes ∧ m.taken bytes = bytes := by
  have hattempt := attempt_flush h
  rw [hflush] at hattempt
  obtain ⟨w₁, hpass, hdrain⟩ := flush_eq_ok_iff.1 hflush
  obtain ⟨hbuffer, hpending⟩ := of_drain_eq_ok hdrain
  cases hattempt with
  | ok _ holds =>
      have hwritten : w'.written = bytes := by
        simpa [hbuffer, hpending, pending_of_pass hpass] using holds.parts
      exact ⟨hwritten, hwritten ▸ holds.fits⟩

/-- A full medium stays as it is, whatever else is tried. -/
theorem Full.written_drain (h : w.Full m bytes) : (after (w.drain m)).written = w.written := by
  rw [drain]
  split <;> exact h.taken_append _

theorem Full.drain (h : w.Full m bytes) : (after (w.drain m)).Full m bytes :=
  ⟨h.written_drain.trans h.written, h.exceeds⟩

theorem Full.store (h : w.Full m bytes) (more : Bytes) :
    (after (w.store m more)).Full m bytes := by
  rw [Writer.store]
  split
  · exact ⟨h.written, h.exceeds⟩
  · have hdrain := h.drain
    cases hdrained : w.drain m with
    | error w₁ =>
        rw [hdrained] at hdrain
        exact hdrain
    | ok w₁ =>
        rw [hdrained] at hdrain
        simp only [bind, Except.bind]
        split
        · exact ⟨hdrain.written, h.exceeds⟩
        split
        all_goals exact ⟨(hdrain.taken_append more).trans hdrain.written, h.exceeds⟩

theorem Full.close (h : w.Full m bytes) : (after (w.close m)).Full m bytes := by
  have hstart : Full m { w with pending := [] } bytes := ⟨h.written, h.exceeds⟩
  have hpass : (after (w.pass m)).Full m bytes := hstart.store w.pending
  rw [Writer.close]
  cases hpassed : w.pass m with
  | error w₁ | ok w₁ =>
      rw [hpassed] at hpass
      exact hpass.drain

theorem attempt_close (h : w.Holds m bytes) : Attempt m bytes (w.close m) := by
  have hattempt := attempt_pass h
  rw [close]
  cases hpass : w.pass m with
  | ok w₁ =>
      rw [hpass] at hattempt
      cases hattempt with
      | ok _ holds => exact attempt_drain holds
  | error w₁ =>
      rw [hpass] at hattempt
      cases hattempt with
      | error _ full => exact .error _ full.drain

/-- A closed file holds the beginning of what was written, as far as there was room, and closing it
fails exactly when that is not all. -/
theorem written_close (h : w.Holds m bytes) :
    (after (w.close m)).written = m.taken bytes ∧
      ((w.close m).isOk ↔ m.taken bytes = bytes) := by
  have hattempt := attempt_close h
  cases hclose : w.close m with
  | ok w' =>
      obtain ⟨hwritten, htaken⟩ := written_of_flush h (close_eq_ok_iff.1 hclose)
      exact ⟨hwritten.trans htaken.symm, by simp [Except.isOk, Except.toBool, htaken]⟩
  | error w' =>
      rw [hclose] at hattempt
      cases hattempt with
      | error _ full => exact ⟨full.written, by simp [Except.isOk, Except.toBool, full.exceeds]⟩

end Closing

end Writer

end Acceptor
