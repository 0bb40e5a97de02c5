import Mathlib.Data.List.Basic
import Mathlib.Data.List.TakeWhile

/-!
# Property trees

Trees of texts whose nodes are addressed by paths of keys, and the words and numbers that a stream
reads from a text.
-/

/-! ## Words and numbers of a text -/

namespace TextStream

variable {text rest word : List Char} {limit : ℕ}

/-- White space of the classic locale. -/
def isSpace (char : Char) : Bool :=
  char.toNat == 32 || (decide (9 ≤ char.toNat) && decide (char.toNat ≤ 13))

/-- Read a word: skip white space, and take what stands before the next white space. -/
def readWord (text : List Char) : Option (List Char × List Char) :=
  let rest := text.dropWhile isSpace
  let word := rest.takeWhile (! isSpace ·)
  if word = [] then none else some (word, rest.dropWhile (! isSpace ·))

/-- Read a number below a limit; a sign is allowed, and a negative number wraps around. -/
def readUnsigned (limit : ℕ) (text : List Char) : Option (ℕ × List Char) :=
  let rest := text.dropWhile isSpace
  let negative := rest.head? = some '-'
  let rest := if rest.head? = some '-' ∨ rest.head? = some '+' then rest.tail else rest
  let digits := rest.takeWhile Char.isDigit
  let value := Nat.ofDigitChars 10 digits 0
  if digits = [] ∨ limit ≤ value then none
  else some (if negative then (limit - value) % limit else value, rest.dropWhile Char.isDigit)

/-- Read a value that is all of a text, up to white space behind it. -/
def readAll {α : Type*} (read : List Char → Option (α × List Char)) (text : String) : Option α :=
  (read text.toList).bind fun (value, rest) => if rest.all isSpace then some value else none

theorem isSpace_of_isDigit {char : Char} (digit : char.isDigit = true) : isSpace char = false := by
  simp only [Char.isDigit, Bool.and_eq_true, decide_eq_true_eq, ge_iff_le,
    UInt32.le_iff_toNat_le] at digit
  have low : 48 ≤ char.toNat := digit.1
  simp only [isSpace, Bool.or_eq_false_iff, beq_eq_false_iff_ne, Bool.and_eq_false_iff,
    decide_eq_false_iff_not]
  omega

/-- Skip what satisfies a predicate in front of what does not. -/
theorem dropWhile_append {predicate : Char → Bool} (all : ∀ char ∈ word, predicate char = true)
    (ends : ∀ char, rest.head? = some char → predicate char = false) :
    (word ++ rest).dropWhile predicate = rest := by
  rw [List.dropWhile_append_of_pos all]
  cases rest with
  | nil => rfl
  | cons char rest => exact List.dropWhile_cons_of_neg (by simp [ends char rfl])

theorem takeWhile_append {predicate : Char → Bool} (all : ∀ char ∈ word, predicate char = true)
    (ends : ∀ char, rest.head? = some char → predicate char = false) :
    (word ++ rest).takeWhile predicate = word := by
  rw [List.takeWhile_append_of_pos all]
  cases rest with
  | nil => simp
  | cons char rest => simp [ends char rfl]

theorem readWord_append (nonempty : word ≠ []) (solid : ∀ char ∈ word, isSpace char = false)
    (ends : ∀ char, rest.head? = some char → isSpace char = true) :
    readWord (word ++ rest) = some (word, rest) := by
  have start : (word ++ rest).dropWhile isSpace = word ++ rest := by
    obtain ⟨char, word, rfl⟩ := List.exists_cons_of_ne_nil nonempty
    exact List.dropWhile_cons_of_neg (by simp [solid char])
  have taken : (word ++ rest).takeWhile (! isSpace ·) = word :=
    takeWhile_append (by simpa using solid) (by simpa using ends)
  have left : (word ++ rest).dropWhile (! isSpace ·) = rest :=
    dropWhile_append (by simpa using solid) (by simpa using ends)
  simp only [readWord, start, taken, left, nonempty, if_false]

theorem readUnsigned_digits {value : ℕ} (small : value < limit)
    (spaces : ∀ char ∈ text, isSpace char = true) :
    readUnsigned limit (text ++ Nat.toDigits 10 value) = some (value, []) := by
  have digits : ∀ char ∈ Nat.toDigits 10 value, char.isDigit = true := fun char member =>
    Nat.isDigit_of_mem_toDigits (by decide) (by decide) member
  obtain ⟨first, more, split⟩ :=
    List.exists_cons_of_ne_nil (Nat.toDigits_ne_nil (b := 10) (n := value))
  have digit : first.isDigit = true := digits first (by simp [split])
  have start : (text ++ Nat.toDigits 10 value).dropWhile isSpace = Nat.toDigits 10 value :=
    dropWhile_append spaces fun char head => by
      rw [split] at head
      obtain rfl := Option.some.inj head
      exact isSpace_of_isDigit digit
  have minus : first ≠ '-' := by
    rintro rfl
    exact absurd digit (by decide)
  have plus : first ≠ '+' := by
    rintro rfl
    exact absurd digit (by decide)
  have taken : (Nat.toDigits 10 value).takeWhile Char.isDigit = Nat.toDigits 10 value :=
    List.takeWhile_eq_self_iff.mpr digits
  have left : (Nat.toDigits 10 value).dropWhile Char.isDigit = [] :=
    List.dropWhile_eq_nil_iff.mpr digits
  have unsigned : (Nat.toDigits 10 value).head? = some first := by rw [split, List.head?_cons]
  simp only [readUnsigned, start, unsigned, Option.some.injEq, minus, plus, or_self, if_false,
    taken, left, Nat.ofDigitChars_ten_toDigits, Nat.toDigits_ne_nil,
    Nat.not_le_of_lt small]

end TextStream

/-! ## Trees -/

/-- A text and children with keys, in order. -/
inductive PropertyTree
  | node (data : String) (children : List (String × PropertyTree))

namespace PropertyTree

/-- What a lookup can throw. -/
inductive Error
  /-- There is no node at the path. -/
  | badPath (path : List String)
  /-- The text of the node is not that of a value. -/
  | badData (data : String)
  deriving DecidableEq, Repr

/-- The tree without a text and without children. -/
def empty : PropertyTree := .node "" []

def data : PropertyTree → String
  | .node data _ => data

def children : PropertyTree → List (String × PropertyTree)
  | .node _ children => children

/-- Change the first child with a key, or add one at the end. -/
def upsert (key : String) (change : PropertyTree → PropertyTree) :
    List (String × PropertyTree) → List (String × PropertyTree)
  | [] => [(key, change empty)]
  | (found, child) :: rest =>
      if found = key then (found, change child) :: rest
      else (found, child) :: upsert key change rest

/-- Set the text of the first node at a path, or create it. -/
def put (text : String) : List String → PropertyTree → PropertyTree
  | [], .node _ children => .node text children
  | key :: path, .node data children => .node data (upsert key (put text path) children)

/-- The first node at a path. -/
def child? : List String → PropertyTree → Option PropertyTree
  | [], tree => some tree
  | key :: path, .node _ children =>
      (children.find? (·.1 = key)).bind fun found => child? path found.2

/-- The node at a path, which must be there. -/
def getChild (path : List String) (tree : PropertyTree) : Except Error PropertyTree :=
  match child? path tree with
  | none => .error (.badPath path)
  | some child => .ok child

/-- The value that a node's text stands for. -/
def getValue {α : Type} (read : String → Option α) (tree : PropertyTree) : Except Error α :=
  match read tree.data with
  | none => .error (.badData tree.data)
  | some value => .ok value

/-- The value at a path. -/
def getAt {α : Type} (read : String → Option α) (path : List String) (tree : PropertyTree) :
    Except Error α := do
  getValue read (← getChild path tree)

variable {key other text later : String} {path : List String} {tree child : PropertyTree}
  {rest : List (String × PropertyTree)} {change next : PropertyTree → PropertyTree}

theorem getValue_eq_ok {α : Type} {read : String → Option α} {value : α}
    (reads : read text = some value) : getValue read (.node text rest) = .ok value := by
  simp only [getValue, data, reads]

theorem getAt_eq_ok {α : Type} {read : String → Option α} {value : α}
    (found : child? path tree = some (.node text rest)) (reads : read text = some value) :
    getAt read path tree = .ok value := by
  simp only [getAt, getChild, found]
  exact getValue_eq_ok reads

@[simp] theorem child?_nil : child? [] tree = some tree := rfl

theorem child?_head :
    child? (key :: path) (.node text ((key, child) :: rest)) = child? path child := by
  simp [child?]

theorem child?_tail (differs : other ≠ key) :
    child? (key :: path) (.node text ((other, child) :: rest)) =
      child? (key :: path) (.node text rest) := by
  simp [child?, differs]

theorem upsert_upsert (children : List (String × PropertyTree)) :
    upsert key next (upsert key change children) = upsert key (next ∘ change) children := by
  induction children with
  | nil => simp [upsert]
  | cons head rest ih =>
      obtain ⟨found, child⟩ := head
      by_cases same : found = key
      · simp [upsert, same]
      · simp [upsert, same, ih]

/-- The text that is put last at a path stays. -/
theorem put_put (path : List String) (tree : PropertyTree) :
    put later path (put text path tree) = put later path tree := by
  induction path generalizing tree with
  | nil =>
      cases tree
      rfl
  | cons key path ih =>
      obtain ⟨data, children⟩ := tree
      have composed : put later path ∘ put text path = put later path := funext ih
      simp only [put, upsert_upsert, composed]

theorem foldl_put {α : Type} (write : α → String) (path : List String) (values : List α)
    (last : α) (tree : PropertyTree) :
    (values ++ [last]).foldl (fun tree value => put (write value) path tree) tree =
      put (write last) path tree := by
  induction values generalizing tree with
  | nil => rfl
  | cons value values ih =>
      rw [List.cons_append, List.foldl_cons, ih, put_put]

end PropertyTree
