import VmAdmission.Json.Printer

namespace VmAdmission.Json

/-- The written form of a member of an object. -/
def memberChars (member : String × Json) : List Char :=
  stringChars member.1 ++ ':' :: member.2.chars

/-- The written form of the items after the first. -/
def moreItems (items : List Json) : List Char :=
  items.flatMap fun item => ',' :: item.chars

/-- The written form of the members after the first. -/
def moreMembers (members : List (String × Json)) : List Char :=
  members.flatMap fun member => ',' :: memberChars member

theorem moreItems_cons (item : Json) (items : List Json) :
    moreItems (item :: items) = ',' :: (item.chars ++ moreItems items) := rfl

theorem moreMembers_cons (member : String × Json) (members : List (String × Json)) :
    moreMembers (member :: members) = ',' :: (memberChars member ++ moreMembers members) := rfl

mutual

/-- Writing puts the characters of the tree before what was written so far. -/
theorem write_eq : (j : Json) → (done : List Char) → j.write done = j.chars.reverse ++ done
  | .null, done => by simp [write, chars]
  | .bool true, done => by simp [write, chars]
  | .bool false, done => by simp [write, chars]
  | .number n, done => by simp [write, chars]
  | .string s, done => by simp [write, chars]
  | .array [], done => by simp [write, writeItems, chars]
  | .array (item :: items), done => by
    rw [chars, List.reverse_reverse]
    simp [write, writeItems, writeItems_eq items, write_eq item]
  | .object [], done => by simp [write, writeMembers, chars]
  | .object ((key, value) :: members), done => by
    rw [chars, List.reverse_reverse]
    simp [write, writeMembers, writeMembers_eq members, write_eq value]

theorem writeItems_eq : (items : List Json) → (done : List Char) →
    writeItems true items done = (moreItems items).reverse ++ done
  | [], done => by simp [writeItems, moreItems]
  | item :: items, done => by
    simp [writeItems, moreItems, writeItems_eq items, write_eq item]

theorem writeMembers_eq : (members : List (String × Json)) → (done : List Char) →
    writeMembers true members done = (moreMembers members).reverse ++ done
  | [], done => by simp [writeMembers, moreMembers]
  | (key, value) :: members, done => by
    simp [writeMembers, moreMembers, memberChars, writeMembers_eq members, write_eq value]

end

theorem chars_null : chars .null = ['n', 'u', 'l', 'l'] := by simp [chars, write]

theorem chars_true : chars (.bool true) = ['t', 'r', 'u', 'e'] := by simp [chars, write]

theorem chars_false : chars (.bool false) = ['f', 'a', 'l', 's', 'e'] := by simp [chars, write]

theorem chars_number (n : Number) : chars (.number n) = numberChars n := by simp [chars, write]

theorem chars_string (s : String) : chars (.string s) = stringChars s := by simp [chars, write]

theorem chars_array_nil : chars (.array []) = ['[', ']'] := by simp [chars, write, writeItems]

theorem chars_array_cons (item : Json) (items : List Json) :
    chars (.array (item :: items)) = '[' :: (item.chars ++ moreItems items ++ [']']) := by
  rw [chars]
  simp [write, writeItems, writeItems_eq, write_eq]

theorem chars_object_nil : chars (.object []) = ['{', '}'] := by
  simp [chars, write, writeMembers]

theorem chars_object_cons (member : String × Json) (members : List (String × Json)) :
    chars (.object (member :: members)) =
      '{' :: (memberChars member ++ moreMembers members ++ ['}']) := by
  rw [chars]
  simp [write, writeMembers, writeMembers_eq, write_eq, memberChars]

end VmAdmission.Json
