/-
# OpsAssist.Theory.Like -- substrings and SQL patterns

Between two `%` a text without wildcards finds the texts that hold it (`like_anywhere`).  A text
with a wildcard finds a text that does not: its specimen, where every wildcard stands for as
little as it can (`like_specimen`, `specimen_not_holding`).
-/
import OpsAssist.Theory.Text

namespace OpsAssist.Theory.Text

set_option autoImplicit false

/-! ## Substrings -/

theorem contains_iff {needle : List Char} : ∀ {text : List Char},
    contains needle text = true ↔ ∃ pre post, text = pre ++ (needle ++ post)
  | [] => by
      rw [contains, List.isEmpty_iff]
      constructor
      · rintro rfl
        exact ⟨[], [], rfl⟩
      · rintro ⟨pre, post, shape⟩
        have none := List.append_eq_nil_iff.mp shape.symm
        exact (List.append_eq_nil_iff.mp none.2).1
  | c :: text => by
      rw [contains, Bool.or_eq_true, contains_iff, List.isPrefixOf_iff_prefix]
      constructor
      · rintro (⟨post, shape⟩ | ⟨pre, post, rfl⟩)
        · exact ⟨[], post, shape.symm⟩
        · exact ⟨c :: pre, post, rfl⟩
      · rintro ⟨pre, post, shape⟩
        cases pre with
        | nil => exact .inl ⟨post, shape.symm⟩
        | cons d pre => exact .inr ⟨pre, post, (List.cons.inj shape).2⟩

/-- A text that is no longer holds only itself. -/
theorem eq_of_contains {needle text : List Char} (holds : contains needle text = true)
    (short : text.length ≤ needle.length) : text = needle := by
  obtain ⟨pre, post, rfl⟩ := contains_iff.mp holds
  simp only [List.length_append] at short
  have before : pre = [] := List.length_eq_zero_iff.mp (by omega)
  have after : post = [] := List.length_eq_zero_iff.mp (by omega)
  simp [before, after]

/-! ## Patterns without wildcards -/

/-- A character that a pattern takes as it stands. -/
def Literal (c : Char) : Prop := c ≠ '%' ∧ c ≠ '_' ∧ c ≠ '\\'

instance (c : Char) : Decidable (Literal c) := inferInstanceAs (Decidable (_ ∧ _ ∧ _))

/-- A character that is no wildcard matches itself. -/
theorem like_cons {c : Char} (literal : Literal c) (pattern text : List Char) :
    like (c :: pattern) text =
      match text with
      | [] => false
      | d :: rest => c == d && like pattern rest := by
  obtain ⟨percent, underscore, backslash⟩ := literal
  cases text with
  | nil =>
      rw [like.eq_def]
      split <;> simp_all
  | cons d rest =>
      rw [like.eq_def]
      split <;> simp_all

/-- A pattern without wildcards before its last `%` finds what begins with it. -/
theorem like_opening : ∀ {opening : List Char}, (∀ c ∈ opening, Literal c) →
    ∀ text : List Char, like (opening ++ ['%']) text = opening.isPrefixOf text
  | [], _, text => by
      rw [List.nil_append, like]
      simp [like]
  | c :: opening, literal, [] => by
      rw [List.cons_append, like_cons (literal c List.mem_cons_self)]
      rfl
  | c :: opening, literal, d :: text => by
      rw [List.cons_append, like_cons (literal c List.mem_cons_self)]
      simp only [List.isPrefixOf]
      rw [like_opening (fun e mem => literal e (List.mem_cons_of_mem _ mem)) text]

/-- A pattern between two `%` is looked for anywhere. -/
theorem like_between (pattern text : List Char) :
    like ('%' :: pattern) text = text.tails.any (like pattern) := by
  rw [like]

/-- Without wildcards, what is found is what holds the text. -/
theorem like_anywhere {needle : List Char} (literal : ∀ c ∈ needle, Literal c)
    (text : List Char) : like ('%' :: needle ++ ['%']) text = contains needle text := by
  rw [List.cons_append, like_between]
  induction text with
  | nil =>
      rw [List.tails, List.any_cons, like_opening literal, contains]
      cases needle <;> rfl
  | cons c text ih =>
      rw [List.tails_cons, List.any_cons, ih, like_opening literal, contains]

/-! ## Patterns with wildcards -/

/-- A text that a pattern finds, a `%` after it: every wildcard stands for as little as it can,
and a last escape takes the `%`. -/
def specimen : List Char → List Char
  | [] => []
  | '%' :: rest => specimen rest
  | '_' :: rest => 'a' :: specimen rest
  | ['\\'] => ['%']
  | '\\' :: c :: rest => c :: specimen rest
  | c :: rest => c :: specimen rest

theorem specimen_cons {c : Char} (literal : Literal c) (rest : List Char) :
    specimen (c :: rest) = c :: specimen rest := by
  obtain ⟨percent, underscore, backslash⟩ := literal
  rw [specimen.eq_def]
  split <;> simp_all

/-- The ways a pattern begins. -/
theorem pattern_cases {motive : List Char → Prop} (nil : motive [])
    (percent : ∀ rest, motive rest → motive ('%' :: rest))
    (underscore : ∀ rest, motive rest → motive ('_' :: rest))
    (dangling : motive ['\\'])
    (escaped : ∀ c rest, motive rest → motive ('\\' :: c :: rest))
    (literal : ∀ c rest, Literal c → motive rest → motive (c :: rest)) :
    ∀ pattern, motive pattern
  | [] => nil
  | [c] => by
      by_cases a : c = '%'
      · exact a ▸ percent [] nil
      by_cases b : c = '_'
      · exact b ▸ underscore [] nil
      by_cases e : c = '\\'
      · exact e ▸ dangling
      exact literal c [] ⟨a, b, e⟩ nil
  | c :: d :: rest => by
      have next := pattern_cases nil percent underscore dangling escaped literal (d :: rest)
      have after := pattern_cases nil percent underscore dangling escaped literal rest
      by_cases a : c = '%'
      · exact a ▸ percent (d :: rest) next
      by_cases b : c = '_'
      · exact b ▸ underscore (d :: rest) next
      by_cases e : c = '\\'
      · exact e ▸ escaped d rest after
      exact literal c (d :: rest) ⟨a, b, e⟩ next

theorem like_specimen (pattern : List Char) :
    like (pattern ++ ['%']) (specimen pattern) = true := by
  induction pattern using pattern_cases with
  | nil => rfl
  | percent rest ih =>
      rw [List.cons_append, specimen, like_between, List.any_eq_true]
      refine ⟨specimen rest, ?_, ih⟩
      cases specimen rest <;> simp
  | underscore rest ih =>
      rw [List.cons_append, specimen, like]
      exact ih
  | dangling => rfl
  | escaped c rest ih =>
      rw [List.cons_append, List.cons_append, specimen, like, beq_self_eq_true, Bool.true_and]
      exact ih
  | literal c rest plain ih =>
      rw [List.cons_append, specimen_cons plain, like_cons plain]
      dsimp only
      rw [ih, beq_self_eq_true]
      rfl

theorem length_specimen (pattern : List Char) : (specimen pattern).length ≤ pattern.length := by
  induction pattern using pattern_cases with
  | nil => exact Nat.le_refl _
  | percent rest ih =>
      rw [specimen, List.length_cons]
      omega
  | underscore rest ih =>
      rw [specimen, List.length_cons, List.length_cons]
      omega
  | dangling => exact Nat.le_refl _
  | escaped c rest ih =>
      rw [specimen, List.length_cons, List.length_cons, List.length_cons]
      omega
  | literal c rest plain ih =>
      rw [specimen_cons plain, List.length_cons, List.length_cons]
      omega

/-- The specimen of a pattern with a wildcard is another text. -/
theorem specimen_ne {pattern : List Char} (wild : ∃ c ∈ pattern, ¬Literal c) :
    specimen pattern ≠ pattern := by
  induction pattern using pattern_cases with
  | nil => simp at wild
  | percent rest ih =>
      intro same
      have short := length_specimen rest
      rw [specimen] at same
      rw [same, List.length_cons] at short
      omega
  | underscore rest ih =>
      intro same
      rw [specimen] at same
      exact absurd (List.cons.inj same).1 (by decide)
  | dangling =>
      intro same
      exact absurd (List.cons.inj same).1 (by decide)
  | escaped c rest ih =>
      intro same
      have short := length_specimen rest
      have long := congrArg List.length same
      rw [specimen, List.length_cons, List.length_cons, List.length_cons] at long
      omega
  | literal c rest plain ih =>
      intro same
      obtain ⟨d, mem, wild⟩ := wild
      rw [specimen_cons plain] at same
      rcases List.mem_cons.mp mem with rfl | later
      · exact wild plain
      · exact ih ⟨d, later, wild⟩ (List.cons.inj same).2

theorem specimen_not_holding {pattern : List Char} (wild : ∃ c ∈ pattern, ¬Literal c) :
    contains pattern (specimen pattern) = false := by
  by_contra holds
  exact specimen_ne wild (eq_of_contains (by simpa using holds) (length_specimen pattern))

/-- A specimen is made of the pattern's characters, an `a` and a `%`. -/
theorem mem_specimen (pattern : List Char) :
    ∀ d ∈ specimen pattern, d ∈ pattern ∨ d = 'a' ∨ d = '%' := by
  induction pattern using pattern_cases with
  | nil => exact nofun
  | percent rest ih =>
      rw [specimen]
      exact fun d mem => (ih d mem).imp_left (List.mem_cons_of_mem _)
  | underscore rest ih =>
      rw [specimen, List.forall_mem_cons]
      exact ⟨.inr (.inl rfl), fun d mem => (ih d mem).imp_left (List.mem_cons_of_mem _)⟩
  | dangling =>
      intro d mem
      exact .inr (.inr (List.mem_singleton.mp mem))
  | escaped c rest ih =>
      rw [specimen, List.forall_mem_cons]
      refine ⟨.inl (by simp), fun d mem => (ih d mem).imp_left fun there => ?_⟩
      exact List.mem_cons_of_mem _ (List.mem_cons_of_mem _ there)
  | literal c rest plain ih =>
      rw [specimen_cons plain, List.forall_mem_cons]
      exact ⟨.inl List.mem_cons_self, fun d mem => (ih d mem).imp_left (List.mem_cons_of_mem _)⟩

end OpsAssist.Theory.Text
