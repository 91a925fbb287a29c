/-!
Values by text, in the order in which their texts first came.  A value that is put under a text takes
the place of the one that was there, so that every text leads to the value put there last
(`find?_insert`).
-/

namespace ProxyConfig

abbrev TextMap (α : Type) := List (String × α)

namespace TextMap

def insert (key : String) (a : α) : TextMap α → TextMap α
  | [] => [(key, a)]
  | (other, b) :: rest =>
    if other = key then (key, a) :: rest else (other, b) :: insert key a rest

def find? (key : String) : TextMap α → Option α
  | [] => none
  | (other, a) :: rest => if other = key then some a else find? key rest

theorem find?_insert (key asked : String) (a : α) (entries : TextMap α) :
    (entries.insert key a).find? asked = if key = asked then some a else entries.find? asked := by
  induction entries with
  | nil => rfl
  | cons entry rest ih =>
    obtain ⟨other, b⟩ := entry
    by_cases here : other = key
    · subst here
      by_cases same : other = asked <;> simp [insert, find?, same]
    · by_cases same : other = asked
      · subst same
        simp [insert, find?, here, Ne.symm here]
      · simp [insert, find?, here, same, ih]

end TextMap

end ProxyConfig
