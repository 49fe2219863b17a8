/-!
# Splitting and joining texts

## Main definitions

* `Text.splitOn`: the parts of a text between separator characters
* `Text.joinWith`: parts joined by a separator
* `Text.join`: the same for strings

## Main results

* `Text.joinWith_splitOn`: joining what was split gives the text back
-/

namespace InterfacePlan.Text

/-- The parts of a text between the occurrences of a separator; at least one part. -/
def splitOn (sep : Char) : List Char → List (List Char)
  | [] => [[]]
  | c :: cs =>
    if c = sep then [] :: splitOn sep cs
    else match splitOn sep cs with
      | [] => [[c]]
      | part :: parts => (c :: part) :: parts

/-- The parts with a separator between each two of them. -/
def joinWith (sep : Char) : List (List Char) → List Char
  | [] => []
  | [part] => part
  | part :: parts => part ++ sep :: joinWith sep parts

/-- The texts with a separating text between each two of them. -/
def join (sep : String) : List String → String
  | [] => ""
  | s :: ss => ss.foldl (fun text t => text ++ sep ++ t) s

@[simp] theorem join_nil (sep : String) : join sep [] = "" := rfl

@[simp] theorem join_singleton (sep s : String) : join sep [s] = s := rfl

theorem join_cons_cons (sep s t : String) (ss : List String) :
    join sep (s :: t :: ss) = s ++ sep ++ join sep (t :: ss) := by
  suffices h : ∀ (start text : String),
      ss.foldl (fun text t => text ++ sep ++ t) (start ++ text)
        = start ++ ss.foldl (fun text t => text ++ sep ++ t) text from h _ _
  intro start text
  induction ss generalizing text with
  | nil => rfl
  | cons u ss ih =>
    rw [List.foldl_cons, List.foldl_cons, ← ih]
    simp only [String.append_assoc]

theorem splitOn_ne_nil (sep : Char) (cs : List Char) : splitOn sep cs ≠ [] := by
  cases cs with
  | nil => simp [splitOn]
  | cons c cs =>
    unfold splitOn
    split
    · simp
    · split <;> simp

theorem joinWith_cons_of_ne_nil {sep : Char} {part : List Char} {parts : List (List Char)}
    (h : parts ≠ []) : joinWith sep (part :: parts) = part ++ sep :: joinWith sep parts := by
  cases parts with
  | nil => exact absurd rfl h
  | cons => rfl

/-- Joining what was split gives the text back. -/
theorem joinWith_splitOn (sep : Char) (cs : List Char) : joinWith sep (splitOn sep cs) = cs := by
  induction cs with
  | nil => rfl
  | cons c cs ih =>
    unfold splitOn
    split
    case isTrue h => rw [joinWith_cons_of_ne_nil (splitOn_ne_nil sep cs), ih, h]; rfl
    case isFalse h =>
      split
      case h_1 h' => exact absurd h' (splitOn_ne_nil sep cs)
      case h_2 part parts h' =>
        rw [h'] at ih
        rw [← ih]
        cases parts <;> rfl

/-- Parts hold no separator. -/
theorem not_mem_of_mem_splitOn {sep : Char} {cs part : List Char} (h : part ∈ splitOn sep cs) :
    sep ∉ part := by
  induction cs generalizing part with
  | nil =>
    obtain rfl := List.mem_singleton.1 h
    simp
  | cons c cs ih =>
    unfold splitOn at h
    split at h
    case isTrue =>
      rcases List.mem_cons.1 h with rfl | h
      · simp
      · exact ih h
    case isFalse hc =>
      split at h
      case h_1 h' => exact absurd h' (splitOn_ne_nil sep cs)
      case h_2 first parts h' =>
        rcases List.mem_cons.1 h with rfl | h
        · have := ih (h' ▸ List.mem_cons_self ..)
          simp only [List.mem_cons, not_or]
          exact ⟨fun h => hc h.symm, this⟩
        · exact ih (h' ▸ List.mem_cons_of_mem _ h)

end InterfacePlan.Text
