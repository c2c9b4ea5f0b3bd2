import Mathlib.Data.List.Basic
import Mathlib.Tactic.Common

/-!
# Texts that tell values apart

Values are written one behind the other, so equal texts mean equal values only if every text says
itself where it ends. `Apart` states this for two values: whatever marks go on behind their texts,
the texts agree only if the values are the same. It holds of texts that never have a mark inside
(`span_unique`) and of quoted ones (`escaped_unique`), and it is inherited by lists of values with
commas between them (`separated_unique`).
-/

namespace LayerChain

/-- A text is at its end, or goes on with one of some marks. -/
def Ends (marks rest : List Char) : Prop := ∀ c ∈ rest.head?, c ∈ marks

/-- The texts of two values tell them apart, if what goes on behind them starts with a mark. -/
def Apart {α : Type} (write : α → List Char) (marks : List Char) (a b : α) : Prop :=
  ∀ r s, Ends marks r → Ends marks s → write a ++ r = write b ++ s → a = b ∧ r = s

lemma ends_nil (marks : List Char) : Ends marks [] := by
  intro c hc
  cases hc

lemma ends_cons {marks : List Char} {c : Char} (h : c ∈ marks) (rest : List Char) :
    Ends marks (c :: rest) := by
  intro d hd
  obtain rfl : c = d := by simpa using hd
  exact h

/-- What holds of each of some characters, tested one by one. Deciding the statement itself may go
through all characters that there are. -/
lemma forall_mem_of_all {p : Char → Prop} [DecidablePred p] {cs : List Char}
    (h : cs.all (fun c => decide (p c)) = true) : ∀ c ∈ cs, p c := by
  intro c hc
  exact of_decide_eq_true (List.all_eq_true.1 h c hc)

/-! ## Texts without marks -/

section

variable {α : Type} {p : α → Bool} {a b r s : List α}

lemma takeWhile_of_stop (ha : ∀ c ∈ a, p c = true) (hr : ∀ c ∈ r.head?, p c = false) :
    (a ++ r).takeWhile p = a := by
  have hstop : r.takeWhile p = [] := by
    cases r with
    | nil => rfl
    | cons c r => rw [List.takeWhile_cons, hr c rfl, if_neg (by decide)]
  rw [List.takeWhile_append_of_pos ha, hstop, List.append_nil]

/-- Two texts of characters of one sort are the same, if characters of the other sort go on behind
them. -/
lemma span_unique (ha : ∀ c ∈ a, p c = true) (hb : ∀ c ∈ b, p c = true)
    (hr : ∀ c ∈ r.head?, p c = false) (hs : ∀ c ∈ s.head?, p c = false) (h : a ++ r = b ++ s) :
    a = b ∧ r = s := by
  have hab : a = b := by rw [← takeWhile_of_stop ha hr, h, takeWhile_of_stop hb hs]
  rw [hab] at h
  exact ⟨hab, List.append_cancel_left h⟩

/-- Two texts without a mark are the same, if they go on with this mark. -/
lemma mark_unique [DecidableEq α] {mark : α} (ha : mark ∉ a) (hb : mark ∉ b)
    (h : a ++ mark :: r = b ++ mark :: s) : a = b ∧ r = s := by
  have hne : ∀ cs : List α, mark ∉ cs → ∀ c ∈ cs, (c != mark) = true := by
    intro cs hcs c hc
    have hcm : c ≠ mark := fun he => hcs (he ▸ hc)
    simpa using hcm
  have hstop : ∀ cs : List α, ∀ c ∈ (mark :: cs).head?, (c != mark) = false := by
    intro cs c hc
    obtain rfl : mark = c := by simpa using hc
    simp
  obtain ⟨hab, hrs⟩ := span_unique (hne a ha) (hne b hb) (hstop r) (hstop s) h
  exact ⟨hab, (List.cons.inj hrs).2⟩

end

/-! ## Quoted texts -/

/-- Characters that are written with escapes, up to a mark that no escape starts with, are the
same if each of them is told from the others. -/
lemma escaped_unique {escape : Char → List Char} {mark : Char}
    (hescape : ∀ c d r s, escape c ++ r = escape d ++ s → c = d ∧ r = s)
    (hmark : ∀ c r s, escape c ++ r ≠ mark :: s) {cs ds r s : List Char}
    (h : cs.flatMap escape ++ mark :: r = ds.flatMap escape ++ mark :: s) : cs = ds ∧ r = s := by
  induction cs generalizing ds with
  | nil =>
    cases ds with
    | nil => exact ⟨rfl, (List.cons.inj h).2⟩
    | cons d ds =>
      rw [List.flatMap_cons, List.append_assoc] at h
      exact absurd h.symm (hmark d _ _)
  | cons c cs ih =>
    cases ds with
    | nil =>
      rw [List.flatMap_cons, List.append_assoc] at h
      exact absurd h (hmark c _ _)
    | cons d ds =>
      rw [List.flatMap_cons, List.flatMap_cons, List.append_assoc, List.append_assoc] at h
      obtain ⟨rfl, hrest⟩ := hescape c d _ _ h
      obtain ⟨rfl, rfl⟩ := ih hrest
      exact ⟨rfl, rfl⟩

/-! ## Parts between commas -/

/-- Texts with commas between them, and a gap after each comma. -/
def separated (gap : List Char) : List (List Char) → List Char
  | [] => []
  | [part] => part
  | part :: rest => part ++ ',' :: (gap ++ separated gap rest)

lemma mem_separated {gap : List Char} {parts : List (List Char)} {c : Char}
    (h : c ∈ separated gap parts) : c = ',' ∨ c ∈ gap ∨ ∃ part ∈ parts, c ∈ part := by
  induction parts with
  | nil => cases h
  | cons part rest ih =>
    cases rest with
    | nil => exact .inr (.inr ⟨part, List.mem_cons_self, h⟩)
    | cons next rest =>
      have hparts : c ∈ part ∨ c = ',' ∨ c ∈ gap ∨ c ∈ separated gap (next :: rest) := by
        simpa [separated] using h
      rcases hparts with hc | hc | hc | hc
      · exact .inr (.inr ⟨part, List.mem_cons_self, hc⟩)
      · exact .inl hc
      · exact .inr (.inl hc)
      · rcases ih hc with hc | hc | ⟨part', hpart', hc⟩
        · exact .inl hc
        · exact .inr (.inl hc)
        · exact .inr (.inr ⟨part', List.mem_cons_of_mem _ hpart', hc⟩)

/-- What goes on behind the first of some parts: the further ones, and a text behind them. -/
def following (gap : List Char) : List (List Char) → List Char → List Char
  | [], after => after
  | part :: rest, after => ',' :: (gap ++ (separated gap (part :: rest) ++ after))

lemma separated_cons (gap part : List Char) (rest : List (List Char)) (after : List Char) :
    separated gap (part :: rest) ++ after = part ++ following gap rest after := by
  cases rest with
  | nil => rfl
  | cons next rest => simp [separated, following]

section

variable {α : Type} {write : α → List Char} {gap marks : List Char} {close : Char}

lemma ends_following (hcomma : ',' ∈ marks) (parts : List (List Char)) {after : List Char}
    (h : Ends marks after) : Ends marks (following gap parts after) := by
  cases parts with
  | nil => exact h
  | cons part rest => exact ends_cons hcomma _

/-- Two lists of values with commas between them are the same up to the mark that closes them, if
each value of the one is told from each of the other. -/
theorem separated_unique (hcomma : ',' ∈ marks) (hclose : close ∈ marks) (hne : close ≠ ',')
    {as bs : List α} (hpart : ∀ a ∈ as, ∀ b ∈ bs, Apart write marks a b)
    (hopen : ∀ a ∈ as ++ bs, ∀ r s, write a ++ r ≠ close :: s) {r s : List Char}
    (h : separated gap (as.map write) ++ close :: r = separated gap (bs.map write) ++ close :: s) :
    as = bs ∧ r = s := by
  induction as generalizing bs with
  | nil =>
    cases bs with
    | nil => exact ⟨rfl, (List.cons.inj h).2⟩
    | cons b bs =>
      rw [List.map_cons, separated_cons] at h
      exact absurd h.symm (hopen b List.mem_cons_self _ _)
  | cons a as ih =>
    cases bs with
    | nil =>
      rw [List.map_cons, separated_cons] at h
      exact absurd h (hopen a List.mem_cons_self _ _)
    | cons b bs =>
      rw [List.map_cons, List.map_cons, separated_cons, separated_cons] at h
      obtain ⟨rfl, hrest⟩ := hpart a List.mem_cons_self b List.mem_cons_self _ _
        (ends_following hcomma _ (ends_cons hclose r))
        (ends_following hcomma _ (ends_cons hclose s)) h
      -- both lists end here, or both go on with a comma
      cases as with
      | nil =>
        cases bs with
        | nil => exact ⟨rfl, (List.cons.inj hrest).2⟩
        | cons b' bs => exact absurd (List.cons.inj hrest).1 hne
      | cons a' as =>
        cases bs with
        | nil => exact absurd (List.cons.inj hrest).1.symm hne
        | cons b' bs =>
          have hmore := List.append_cancel_left (List.cons.inj hrest).2
          obtain ⟨hlists, rfl⟩ := ih
            (fun c hc d hd => hpart c (List.mem_cons_of_mem _ hc) d (List.mem_cons_of_mem _ hd))
            (fun c hc => hopen c (by grind)) hmore
          exact ⟨by rw [hlists], rfl⟩

end

/-! ## Lines -/

/-- Two lists of lines are the same up to the first empty line. -/
lemma lines_unique {ls ms : List (List Char)} (hl : ∀ l ∈ ls, l ≠ [] ∧ '\n' ∉ l)
    (hm : ∀ m ∈ ms, m ≠ [] ∧ '\n' ∉ m) {r s : List Char}
    (h : ls.flatMap (fun l => l ++ ['\n']) ++ '\n' :: r =
      ms.flatMap (fun m => m ++ ['\n']) ++ '\n' :: s) : ls = ms ∧ r = s := by
  have hstart : ∀ l : List Char, l ≠ [] ∧ '\n' ∉ l → ∀ r s, l ++ '\n' :: r ≠ '\n' :: s := by
    rintro l ⟨hne, hl⟩ r s he
    cases l with
    | nil => exact hne rfl
    | cons c l => exact hl ((List.cons.inj he).1 ▸ List.mem_cons_self)
  induction ls generalizing ms with
  | nil =>
    cases ms with
    | nil => exact ⟨rfl, (List.cons.inj h).2⟩
    | cons m ms =>
      rw [List.flatMap_cons, List.append_assoc, List.append_assoc] at h
      exact absurd h.symm (hstart m (hm m List.mem_cons_self) _ _)
  | cons l ls ih =>
    cases ms with
    | nil =>
      rw [List.flatMap_cons, List.append_assoc, List.append_assoc] at h
      exact absurd h (hstart l (hl l List.mem_cons_self) _ _)
    | cons m ms =>
      obtain ⟨⟨-, hlm⟩, hls⟩ := List.forall_mem_cons.1 hl
      obtain ⟨⟨-, hmm⟩, hms⟩ := List.forall_mem_cons.1 hm
      rw [List.flatMap_cons, List.flatMap_cons, List.append_assoc, List.append_assoc,
        List.append_assoc, List.append_assoc] at h
      obtain ⟨rfl, hrest⟩ := mark_unique hlm hmm h
      obtain ⟨rfl, rfl⟩ := ih hls hms hrest
      exact ⟨rfl, rfl⟩

end LayerChain
