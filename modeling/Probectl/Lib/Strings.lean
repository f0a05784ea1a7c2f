import Mathlib

/-! Byte strings and the few functions on them that programs here share:
literals, cutting at a prefix or at a separator, byte order, and the anchored
patterns of the form `^[first][rest]{lo,hi}$`. -/
namespace Probectl

open List

abbrev Bytes := List UInt8

instance : LawfulBEq Bytes := inferInstance

namespace Strings

def lit (s : String) : Bytes := s.toUTF8.data.toList

section Cut

variable {α : Type u} [DecidableEq α]

def cutPrefix (s pre : List α) : Option (List α) :=
  if pre <+: s then some (s.drop pre.length) else none

/-- `strings.Cut` at a one-symbol separator: what stands before and behind its
first occurrence. -/
def cut (sep : α) : List α → Option (List α × List α)
  | [] => none
  | a :: rest => if a = sep then some ([], rest) else (cut sep rest).map (fun p => (a :: p.1, p.2))

theorem cutPrefix_append (pre rest : List α) : cutPrefix (pre ++ rest) pre = some rest := by
  simp [cutPrefix]

theorem cutPrefix_some {s : List α} : cutPrefix s pre = some rest ↔ s = pre ++ rest := by
  constructor
  · intro h
    unfold cutPrefix at h
    split at h
    case isTrue starts =>
      obtain ⟨t, rfl⟩ := starts
      simpa using h
    case isFalse => simp at h
  · rintro rfl
    exact cutPrefix_append pre rest

theorem cut_append (absent : sep ∉ before) (behind : List α) :
    cut sep (before ++ sep :: behind) = some (before, behind) := by
  induction before with
  | nil => simp [cut]
  | cons a rest ih =>
    have other : a ≠ sep := fun same => absent (same ▸ mem_cons_self)
    have later : sep ∉ rest := fun mem => absent (mem_cons_of_mem a mem)
    simp [cut, other, ih later]

theorem separated_injective {sep : α} (absent : sep ∉ x) (absent' : sep ∉ x')
    (same : x ++ sep :: y = x' ++ sep :: y') : x = x' ∧ y = y' := by
  have cuts := congrArg (cut sep) same
  rw [cut_append absent, cut_append absent'] at cuts
  exact Prod.mk.inj (Option.some.inj cuts)

omit [DecidableEq α] in
/-- Where one front has no separator, the other one is the same or goes on behind one. -/
theorem separated_overlap {sep : α} {x y x' y' : List α} (absent : sep ∉ x)
    (same : x ++ sep :: y = x' ++ sep :: y') :
    (x = x' ∧ y = y') ∨ ∃ more, x' = x ++ sep :: more ∧ y = more ++ sep :: y' := by
  rcases append_eq_append_iff.mp same with ⟨more, longer, rest⟩ | ⟨more, rfl, rest⟩
  · cases more with
    | nil => exact .inl ⟨by rw [longer, append_nil], (cons.inj rest).2⟩
    | cons b more =>
      obtain ⟨rfl, behind⟩ := cons.inj rest
      exact .inr ⟨more, longer, behind⟩
  · cases more with
    | nil => exact .inl ⟨append_nil _, (cons.inj rest).2.symm⟩
    | cons b more => exact absurd ((cons.inj rest).1 ▸ mem_append_right _ mem_cons_self) absent

theorem cut_some {sep : α} (h : cut sep s = some (before, behind)) :
    s = before ++ sep :: behind ∧ sep ∉ before := by
  induction s generalizing before with
  | nil => simp [cut] at h
  | cons a rest ih =>
    unfold cut at h
    split at h
    case isTrue here =>
      cases h
      exact ⟨by simp [here], by simp⟩
    case isFalse other =>
      obtain ⟨⟨front, back⟩, found, same⟩ := Option.map_eq_some_iff.mp h
      cases same
      obtain ⟨rfl, absent⟩ := ih found
      exact ⟨rfl, by simpa [Ne.symm other] using absent⟩

end Cut

/-- The byte order Go compares strings by. -/
def less : Bytes → Bytes → Bool
  | _, [] => false
  | [], _ :: _ => true
  | a :: as, b :: bs => a < b || (a = b && less as bs)

def sort (ss : List Bytes) : List Bytes := ss.insertionSort (fun a b => less b a = false)

/-- `^[first][rest]{lo,hi}$`, matched against the whole text. -/
def headTail (first rest : UInt8 → Bool) (lo : Nat) (hi : Option Nat) : Bytes → Bool
  | [] => false
  | c :: cs => first c && cs.all rest && decide (lo ≤ cs.length) && hi.all (fun n => decide (cs.length ≤ n))

theorem headTail_iff (first rest : UInt8 → Bool) (lo : Nat) (hi : Option Nat) (s : Bytes) :
    headTail first rest lo hi s = true ↔
      ∃ c cs, s = c :: cs ∧ first c = true ∧ (∀ b ∈ cs, rest b = true) ∧ lo ≤ cs.length ∧
        ∀ n, hi = some n → cs.length ≤ n := by
  cases s with
  | nil => simp [headTail]
  | cons c cs => cases hi <;> simp [headTail, and_assoc]

variable {s : Bytes} {rest first : UInt8 → Bool} {lo : Nat} {hi : Option Nat}

theorem headTail_avoids (matched : headTail first rest lo hi s = true) (notFirst : first b = false)
    (notRest : rest b = false) : b ∉ s := by
  obtain ⟨c, cs, rfl, head, tail, _⟩ := (headTail_iff first rest lo hi s).mp matched
  intro mem
  rcases mem_cons.mp mem with rfl | later
  · simp [notFirst] at head
  · exact absurd (tail b later) (by simp [notRest])

theorem headTail_forall (matched : headTail first rest lo hi s = true) (part : ∀ b, first b = true → rest b = true) :
    ∀ b ∈ s, rest b = true := by
  obtain ⟨c, cs, rfl, head, tail, _⟩ := (headTail_iff first rest lo hi s).mp matched
  exact forall_mem_cons.mpr ⟨part c head, tail⟩

def isLower (b : UInt8) : Bool := decide (97 ≤ b) && decide (b ≤ 122)
def isUpper (b : UInt8) : Bool := decide (65 ≤ b) && decide (b ≤ 90)
def isDigit (b : UInt8) : Bool := decide (48 ≤ b) && decide (b ≤ 57)

def within (lo hi b : UInt8) : Bool := decide (lo ≤ b) && decide (b ≤ hi)

/-- How many bytes the first rune of a text takes; a byte that begins no valid
UTF-8 encoding is a rune of its own. -/
def runeWidth (s : Bytes) : Nat :=
  let b := s.getD 0 0
  let second := within (if b = 0xE0 then 0xA0 else if b = 0xF0 then 0x90 else 0x80)
    (if b = 0xED then 0x9F else if b = 0xF4 then 0x8F else 0xBF) (s.getD 1 0)
  -- a missing byte reads as zero, which continues nothing
  let continues := fun i => within 0x80 0xBF (s.getD i 0)
  if within 0xC2 0xDF b && second then 2
  else if within 0xE0 0xEF b && second && continues 2 then 3
  else if within 0xF0 0xF4 b && second && continues 2 && continues 3 then 4
  else 1

/-- The UTF-8 encodings of the runes that `unicode.IsSpace` accepts. -/
def spaces : List Bytes :=
  [[9], [10], [11], [12], [13], [32], [0xC2, 0x85], [0xC2, 0xA0], [0xE1, 0x9A, 0x80],
    [0xE2, 0x80, 0x80], [0xE2, 0x80, 0x81], [0xE2, 0x80, 0x82], [0xE2, 0x80, 0x83], [0xE2, 0x80, 0x84],
    [0xE2, 0x80, 0x85], [0xE2, 0x80, 0x86], [0xE2, 0x80, 0x87], [0xE2, 0x80, 0x88], [0xE2, 0x80, 0x89],
    [0xE2, 0x80, 0x8A], [0xE2, 0x80, 0xA8], [0xE2, 0x80, 0xA9], [0xE2, 0x80, 0xAF], [0xE2, 0x81, 0x9F],
    [0xE3, 0x80, 0x80]]

/-- Takes the given texts off the front, at most `fuel` of them. -/
def stripFront (texts : List Bytes) : (fuel : Nat) → Bytes → Bytes
  | 0, s => s
  | fuel + 1, s =>
    match texts.findSome? (cutPrefix s) with
    | some rest => stripFront texts fuel rest
    | none => s

/-- `strings.TrimSpace`. No text has more spaces in it than bytes. -/
def trimSpace (s : Bytes) : Bytes :=
  let s := stripFront spaces s.length s
  (stripFront (spaces.map reverse) s.length s.reverse).reverse

def plain (b : UInt8) : Bool := within 33 126 b

theorem stripFront_plain (fuel : Nat) (marked : ∀ t ∈ texts, t.head?.map plain = some false)
    (start : ∀ b, s.head? = some b → plain b = true) : stripFront texts fuel s = s := by
  cases fuel with
  | zero => rfl
  | succ fuel =>
    have none : texts.findSome? (cutPrefix s) = none := by
      rw [findSome?_eq_none_iff]
      intro t mem
      have unplain := marked t mem
      by_contra found
      obtain ⟨after, cut⟩ := Option.ne_none_iff_exists'.mp found
      obtain rfl := cutPrefix_some.mp cut
      cases t with
      | nil => cases unplain
      | cons b rest => simp [start b rfl] at unplain
    simp only [stripFront, none]

theorem trimSpace_plain (start : ∀ b, s.head? = some b → plain b = true)
    (stop : ∀ b, s.getLast? = some b → plain b = true) : trimSpace s = s := by
  unfold trimSpace
  rw [stripFront_plain s.length (by decide) start]
  dsimp only
  rw [stripFront_plain s.length (by decide) (by simpa using stop), reverse_reverse]

end Strings
end Probectl
