import ApiLint.Proofs.Schema.Location
import ApiLint.Proofs.Text

/-! Dotted paths without dots in names. A path is a list of words between dots, and the words of a
location tell its steps one by one, so that a path leads to one node only, and a path that ends in
the word `type` leads to none. -/

namespace ApiLint

/-! ## Steps and their words -/

namespace Step

/-- Any step but one to a property with a dot in its name. -/
def DotFree : Step → Prop
  | property name => '.' ∉ name.toList
  | _ => True

/-- What stands behind the dots of a step's text. -/
def words : Step → List String
  | property name => ["properties", name]
  | items => ["items"]
  | member kind index => [kind.keyword ++ "[" ++ toString index ++ "]"]

theorem toList_text (step : Step) :
    step.text.toList = (step.words.map String.toList).flatMap ('.' :: ·) := by
  cases step with
  | property name => simp [text, words]
  | items => simp [text, words]
  | member kind index => simp [text, words]

theorem not_mem_words {step : Step} (h : step.DotFree) :
    ∀ word ∈ step.words, '.' ∉ word.toList := by
  cases step with
  | property name =>
      have hn : '.' ∉ name.toList := h
      simpa [words] using hn
  | items => simp [words]
  | member kind index =>
      have hi : '.' ∉ (toString index).toList := not_mem_toString (by decide) index
      cases kind <;> simpa [words, Composition.keyword] using hi

/-- The keyword and the position can be told from the word of a member. -/
theorem member_word_inj {kind kind' : Composition} {index index' : Nat}
    (h : kind.keyword ++ "[" ++ toString index ++ "]" =
      kind'.keyword ++ "[" ++ toString index' ++ "]") : kind = kind' ∧ index = index' := by
  have hk : kind = kind' := by
    have hl := congrArg String.toList h
    cases kind <;> cases kind' <;> simp [Composition.keyword] at hl ⊢
  subst hk
  rw [String.append_left_inj, String.append_right_inj] at h
  exact ⟨rfl, toString_inj h⟩

/-- The word of a member starts with another letter than all other words of steps. -/
theorem member_word_ne (kind : Composition) (index : Nat) :
    kind.keyword ++ "[" ++ toString index ++ "]" ≠ "properties" ∧
      kind.keyword ++ "[" ++ toString index ++ "]" ≠ "items" ∧
      kind.keyword ++ "[" ++ toString index ++ "]" ≠ "type" := by
  simp only [ne_eq, ← String.toList_inj]
  cases kind <;> simp [Composition.keyword]

/-- A step can be told from the first of some words, and the further words with it. -/
theorem words_append_inj {step other : Step} {rest rest' : List String}
    (h : step.words ++ rest = other.words ++ rest') : step = other ∧ rest = rest' := by
  cases step with
  | property name =>
      cases other with
      | property name' => simpa [words, and_assoc] using h
      | items => simp [words] at h
      | member kind' index' => exact absurd (List.cons.inj h).1.symm (member_word_ne kind' index').1
  | items =>
      cases other with
      | property name' => simp [words] at h
      | items => simpa [words] using h
      | member kind' index' =>
          exact absurd (List.cons.inj h).1.symm (member_word_ne kind' index').2.1
  | member kind index =>
      cases other with
      | property name' => exact absurd (List.cons.inj h).1 (member_word_ne kind index).1
      | items => exact absurd (List.cons.inj h).1 (member_word_ne kind index).2.1
      | member kind' index' =>
          obtain ⟨hw, rfl⟩ := List.cons.inj h
          obtain ⟨rfl, rfl⟩ := member_word_inj hw
          exact ⟨rfl, rfl⟩

end Step

namespace Location

/-- What stands behind the dots of a location's path. -/
def words (location : Location) : List String := location.flatMap Step.words

/-- No step goes to a property with a dot in its name. -/
def DotFree (location : Location) : Prop := ∀ step ∈ location, step.DotFree

theorem toList_path (base : String) (location : Location) :
    (path base location).toList =
      base.toList ++ (location.words.map String.toList).flatMap ('.' :: ·) := by
  induction location generalizing base with
  | nil => simp [words]
  | cons step rest ih =>
      rw [path_cons, ih, String.toList_append, Step.toList_text, words, words, List.flatMap_cons,
        List.map_append, List.flatMap_append, List.append_assoc]

theorem DotFree.not_mem_words {location : Location} (h : location.DotFree) :
    ∀ word ∈ location.words, '.' ∉ word.toList := by
  intro word hw
  obtain ⟨step, hs, hw⟩ := List.mem_flatMap.mp hw
  exact Step.not_mem_words (h step hs) word hw

/-- A location that starts with the words of another one goes on from there. -/
theorem exists_of_words_eq_append {above location : Location} {tail : List String}
    (h : location.words = above.words ++ tail) :
    ∃ below : Location, location = above ++ below ∧ below.words = tail := by
  induction above generalizing location with
  | nil => exact ⟨location, rfl, h⟩
  | cons step above ih =>
      cases location with
      | nil => cases step <;> cases h
      | cons first location =>
          have hw : first.words ++ words location = step.words ++ (words above ++ tail) := by
            simpa only [words, List.flatMap_cons, List.append_assoc] using h
          obtain ⟨rfl, hr⟩ := Step.words_append_inj hw
          obtain ⟨below, rfl, hb⟩ := ih hr
          exact ⟨below, rfl, hb⟩

variable {location other : Location}

theorem words_eq_of_path_eq (base : String) (hl : location.DotFree) (ho : other.DotFree)
    {tail : List String} (ht : ∀ word ∈ tail, '.' ∉ word.toList)
    (h : (location.path base).toList =
      (other.path base).toList ++ (tail.map String.toList).flatMap ('.' :: ·)) :
    location.words = other.words ++ tail := by
  rw [toList_path, toList_path, List.append_assoc, ← List.flatMap_append, ← List.map_append] at h
  exact eq_of_flatMap_cons_eq hl.not_mem_words
    (List.forall_mem_append.mpr ⟨ho.not_mem_words, ht⟩) (List.append_cancel_left h)

/-- Without dots in names, a path tells its location. -/
theorem path_inj {base : String} (hl : location.DotFree) (ho : other.DotFree)
    (h : location.path base = other.path base) : location = other := by
  have hw : location.words = other.words ++ [] :=
    words_eq_of_path_eq base hl ho (by simp) (by simp [h])
  obtain ⟨below, rfl, hb⟩ := exists_of_words_eq_append hw
  cases below with
  | nil => rw [List.append_nil]
  | cons step below => cases step <;> cases hb

/-- The type of a node is not told by the path of another node. -/
theorem path_ne_append_type {base : String} (hl : location.DotFree) (ho : other.DotFree) :
    location.path base ≠ other.path base ++ ".type" := by
  intro h
  have hw : location.words = other.words ++ ["type"] :=
    words_eq_of_path_eq base hl ho (by simp) (by simp [h])
  obtain ⟨below, rfl, hb⟩ := exists_of_words_eq_append hw
  cases below with
  | nil => cases hb
  | cons step below =>
      cases step with
      | property name => simp [words, Step.words] at hb
      | items => simp [words, Step.words] at hb
      | member kind index => exact (Step.member_word_ne kind index).2.2 (List.cons.inj hb).1

end Location

end ApiLint
