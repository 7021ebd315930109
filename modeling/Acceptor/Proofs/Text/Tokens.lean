import Acceptor.Proofs.Text.Lines
import Acceptor.Text.Tokens

/-!
# Laws of tokens

Tokens can be told in three ways, which agree: as the pieces between spaces that are not empty
(`tokens`), by the lines that are written with them (`Spaced`), and by their places in a line
(`IsRun`).

* `tokens_eq_iff`: a line has the tokens that it is made of, and no line is made of others.
* `mem_tokens_iff`: the tokens of a line are its maximal runs of characters other than the space.
-/

namespace Acceptor.Text

/-! ## Lines made of tokens -/

/-- A token is not empty and holds no space. -/
structure IsToken (t : Text) : Prop where
  ne_nil : t ≠ []
  notMem_space : ' ' ∉ t

instance (t : Text) : Decidable (IsToken t) :=
  decidable_of_iff (t ≠ [] ∧ ' ' ∉ t) ⟨fun h ↦ ⟨h.1, h.2⟩, fun h ↦ ⟨h.ne_nil, h.notMem_space⟩⟩

/-- The lines made of given tokens in order, with one space or more between neighbours and any
number of spaces at the two ends. -/
inductive Spaced : List Text → Text → Prop
  | nil : Spaced [] []
  | space {ts : List Text} {line : Text} : Spaced ts line → Spaced ts (' ' :: line)
  | last {t : Text} : IsToken t → Spaced [t] t
  | token {t : Text} {ts : List Text} {line : Text} :
      IsToken t → Spaced ts line → Spaced (t :: ts) (t ++ ' ' :: line)

/-- A maximal run of characters other than the space. -/
def IsRun (line run : Text) : Prop :=
  IsToken run ∧ ∃ front back, line = front ++ run ++ back ∧
    (front = [] ∨ front.getLast? = some ' ') ∧ (back = [] ∨ back.head? = some ' ')

/-! ## Splitting at spaces -/

@[simp] theorem tokens_nil : tokens [] = [] := rfl

theorem tokens_append_space (x y : Text) : tokens (x ++ ' ' :: y) = tokens x ++ tokens y := by
  rw [tokens, List.splitOn_append_cons_self, List.filter_append, tokens, tokens]

@[simp] theorem tokens_cons_space (line : Text) : tokens (' ' :: line) = tokens line := by
  simpa using tokens_append_space [] line

theorem IsToken.tokens_eq {t : Text} (h : IsToken t) : tokens t = [t] := by
  rw [tokens, List.splitOn_eq_singleton h.notMem_space]
  simp [h.ne_nil]

/-- A piece without spaces has itself as its token, unless it is empty. -/
theorem isToken_or_eq_nil {piece : Text} (h : ' ' ∉ piece) : IsToken piece ∨ piece = [] := by
  by_cases hne : piece = []
  · exact .inr hne
  · exact .inl ⟨hne, h⟩

theorem IsToken.filter_eq {t : Text} (h : IsToken t) : t.filter (· != ' ') = t :=
  List.filter_eq_self.2 fun _ hc ↦ bne_iff_ne.2 fun hspace ↦ h.notMem_space (hspace ▸ hc)

theorem Spaced.tokens_eq {ts : List Text} {line : Text} (h : Spaced ts line) :
    tokens line = ts := by
  induction h with
  | nil => rfl
  | space _ ih => rw [tokens_cons_space, ih]
  | last ht => exact ht.tokens_eq
  | token ht _ ih => rw [tokens_append_space, ht.tokens_eq, ih, List.singleton_append]

/-- A line is its tokens but for the spaces. -/
theorem Spaced.flatten_eq {ts : List Text} {line : Text} (h : Spaced ts line) :
    ts.flatten = line.filter (· != ' ') := by
  induction h with
  | nil => rfl
  | space _ ih => simpa using ih
  | last ht => simp [ht.filter_eq]
  | token ht _ ih => simp [ht.filter_eq, ih]

theorem spaced_tokens (line : Text) : Spaced (tokens line) line := by
  induction line using piece_induction ' ' with
  | last piece h =>
      rcases isToken_or_eq_nil h with ht | rfl
      · exact ht.tokens_eq ▸ .last ht
      · exact .nil
  | more piece rest h ih =>
      rw [tokens_append_space]
      rcases isToken_or_eq_nil h with ht | rfl
      · rw [ht.tokens_eq]
        exact .token ht ih
      · exact .space ih

/-- The tokens of a line are those that it is made of. -/
theorem tokens_eq_iff {line : Text} {ts : List Text} : tokens line = ts ↔ Spaced ts line :=
  ⟨fun h ↦ h ▸ spaced_tokens line, Spaced.tokens_eq⟩

theorem tokens_eq_nil_iff {line : Text} : tokens line = [] ↔ ∀ c ∈ line, c = ' ' := by
  constructor
  · intro h
    rw [tokens_eq_iff] at h
    generalize hts : ([] : List Text) = ts at h
    induction h with
    | nil => simp
    | space _ ih => simpa using ih hts
    | last => simp at hts
    | token => simp at hts
  · intro h
    induction line with
    | nil => rfl
    | cons c line ih =>
        rw [h c (by simp), tokens_cons_space]
        exact ih fun d hd ↦ h d (List.mem_cons_of_mem c hd)

/-! ## Tokens as runs -/

/-- The tokens of a line are its maximal runs of characters other than the space. -/
theorem mem_tokens_iff {line run : Text} : run ∈ tokens line ↔ IsRun line run := by
  constructor
  · intro h
    induction line using piece_induction ' ' with
    | last piece hpiece =>
        rcases isToken_or_eq_nil hpiece with ht | rfl
        · rw [ht.tokens_eq, List.mem_singleton] at h
          subst h
          exact ⟨ht, [], [], by simp, .inl rfl, .inl rfl⟩
        · simp at h
    | more piece rest hpiece ih =>
        rw [tokens_append_space] at h
        rcases List.mem_append.1 h with h | h
        · rcases isToken_or_eq_nil hpiece with ht | rfl
          · rw [ht.tokens_eq, List.mem_singleton] at h
            subst h
            exact ⟨ht, [], ' ' :: rest, by simp, .inl rfl, .inr rfl⟩
          · simp at h
        · obtain ⟨ht, front, back, rfl, hfront, hback⟩ := ih h
          refine ⟨ht, piece ++ ' ' :: front, back, by simp, .inr ?_, hback⟩
          rcases hfront with rfl | hfront
          · simp
          · rw [List.getLast?_append, List.getLast?_cons, hfront]
            rfl
  · rintro ⟨ht, front, back, rfl, hfront, hback⟩
    have hrun : run ∈ tokens (run ++ back) := by
      rcases hback with rfl | hback
      · rw [List.append_nil, ht.tokens_eq]
        exact List.mem_singleton_self run
      · obtain ⟨back, rfl⟩ := List.head?_eq_some_iff.1 hback
        rw [tokens_append_space, ht.tokens_eq]
        exact List.mem_append_left _ (List.mem_singleton_self run)
    rcases hfront with rfl | hfront
    · exact hrun
    · obtain ⟨front, rfl⟩ := List.getLast?_eq_some_iff.1 hfront
      rw [List.append_assoc, List.append_assoc, List.singleton_append, tokens_append_space]
      exact List.mem_append_right _ hrun

theorem isToken_of_mem_tokens {line token : Text} (h : token ∈ tokens line) : IsToken token :=
  (mem_tokens_iff.1 h).1

/-- A token has no characters that its line has not. -/
theorem subset_of_mem_tokens {line token : Text} (h : token ∈ tokens line) : token ⊆ line := by
  obtain ⟨-, front, back, rfl, -, -⟩ := mem_tokens_iff.1 h
  exact fun c hc ↦ by simp [hc]

/-- Tokens that are joined by single spaces are read back. -/
theorem tokens_intercalate {ts : List Text} (h : ∀ t ∈ ts, IsToken t) :
    tokens ([' '].intercalate ts) = ts := by
  cases ts with
  | nil => rfl
  | cons t ts =>
      rw [tokens, List.splitOn_intercalate ' ' (fun t ht ↦ (h t ht).notMem_space) (by simp)]
      exact List.filter_eq_self.2 fun t ht ↦ by simpa using (h t ht).ne_nil

/-- The tokens of a line are not empty and hold no space, and together they hold all the rest of it
in order.  A space separates tokens wherever it stands.  A line has given tokens exactly when it is
made of them, with one space or more between neighbours and any number of spaces at the two
ends. -/
theorem tokens_determined (line : Text) (ts : List Text) :
    (∀ token ∈ tokens line, token ≠ [] ∧ ' ' ∉ token) ∧
    (tokens line).flatten = line.filter (· != ' ') ∧
    (∀ x y, tokens (x ++ ' ' :: y) = tokens x ++ tokens y) ∧
    (tokens line = ts ↔ Spaced ts line) := by
  refine ⟨fun token h ↦ ?_, (spaced_tokens line).flatten_eq, tokens_append_space, tokens_eq_iff⟩
  have htoken := isToken_of_mem_tokens h
  exact ⟨htoken.ne_nil, htoken.notMem_space⟩

/-- Tabs and carriage returns are no spaces, also at the end of a token or alone. -/
theorem tokens_determined_tab :
    let line := "  q\t   \r a".toList
    let ts := ["q\t".toList, "\r".toList, "a".toList]
    Spaced ts line ∧ tokens line = ts ∧ ts.flatten = "q\t\ra".toList ∧
      "\r".toList ∈ tokens line ∧ ' ' ∉ "\r".toList := by
  intro line ts
  have hspaced : Spaced ts line :=
    .space <| .space <| .token (t := "q\t".toList) (by decide) <| .space <| .space <|
      .token (t := "\r".toList) (by decide) <| .last (by decide)
  obtain ⟨hmem, hflatten, -, hts⟩ := tokens_determined line ts
  have htokens := hts.2 hspaced
  have hreturn : "\r".toList ∈ tokens line := by simp [htokens, ts]
  refine ⟨hspaced, htokens, ?_, hreturn, (hmem _ hreturn).2⟩
  rw [← htokens, hflatten]
  rfl

end Acceptor.Text
