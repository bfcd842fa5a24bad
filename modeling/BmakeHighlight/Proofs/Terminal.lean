/-
A terminal that shows text in colours.  It keeps the attributes in which it shows
characters, and changes them by the codes of attribute sequences.  What a style
draws comes out of it in the attributes of the style, and leaves it as it was.
-/
import BmakeHighlight.Rendering
import BmakeHighlight.Proofs.Decimals

namespace BmakeHighlight

/-- How characters are shown. -/
structure CharAttributes where
  foreground? : Option Color
  background? : Option Color
  bold : Bool
  underline : Bool
deriving DecidableEq, Repr

/-- No attributes at all. -/
def CharAttributes.plain : CharAttributes :=
  ⟨none, none, false, false⟩

/-- The attributes that a style asks for. -/
def Style.attributes (s : Style) : CharAttributes :=
  ⟨s.foreground?, s.background?, s.bold, s.underline⟩

/-- The attributes after the codes of a sequence, from left to right: zero takes all of them
back, one is bold, four is underline, and 38 or 48 with a two behind it takes the next three
for the colour of the characters or behind them.  Other codes change nothing. -/
def CharAttributes.apply : List Nat → CharAttributes → CharAttributes
  | [], a => a
  | 0 :: codes, _ => apply codes plain
  | 1 :: codes, a => apply codes { a with bold := true }
  | 4 :: codes, a => apply codes { a with underline := true }
  | 38 :: 2 :: red :: green :: blue :: codes, a =>
      apply codes { a with foreground? := some ⟨.ofNat red, .ofNat green, .ofNat blue⟩ }
  | 48 :: 2 :: red :: green :: blue :: codes, a =>
      apply codes { a with background? := some ⟨.ofNat red, .ofNat green, .ofNat blue⟩ }
  | _ :: codes, a => apply codes a

/-- A character as it stands on the screen. -/
structure Cell where
  char : Char
  attributes : CharAttributes
deriving DecidableEq, Repr

/-- What a terminal is in the middle of: text, an escape sequence that has only begun, or
the codes of one, those already complete and the value of the one being read. -/
inductive Reading where
  | text
  | escape
  | codes (complete : List Nat) (value : Nat)
deriving DecidableEq, Repr

/-- The state of a terminal. -/
structure Terminal where
  reading : Reading
  attributes : CharAttributes
deriving DecidableEq, Repr

namespace Terminal

/-- A terminal between escape sequences. -/
def idle (a : CharAttributes) : Terminal :=
  ⟨.text, a⟩

/-- A terminal that nothing has been sent to. -/
def initial : Terminal :=
  idle .plain

/-- Reads a character.  Outside escape sequences every character but the escape is shown. -/
def read (term : Terminal) (c : Char) : Option Cell × Terminal :=
  match term.reading with
  | .text =>
      if c = BmakeHighlight.escape then (none, ⟨.escape, term.attributes⟩)
      else (some ⟨c, term.attributes⟩, term)
  | .escape =>
      if c = '[' then (none, ⟨.codes [] 0, term.attributes⟩) else (none, idle term.attributes)
  | .codes complete value =>
      if c.isDigit then
        (none, ⟨.codes complete (10 * value + (c.toNat - '0'.toNat)), term.attributes⟩)
      else if c = ';' then (none, ⟨.codes (complete ++ [value]) 0, term.attributes⟩)
      else if c = 'm' then (none, idle (.apply (complete ++ [value]) term.attributes))
      else (none, idle term.attributes)

/-- Reads a text: what is shown, and the terminal afterwards. -/
def display (term : Terminal) : Text → List Cell × Terminal
  | [] => ([], term)
  | c :: t =>
      let (cell?, next) := term.read c
      let (cells, last) := display next t
      (cell?.toList ++ cells, last)

theorem display_cons {term next last : Terminal} {c : Char} {t : Text} {cell? : Option Cell}
    {cells : List Cell} (hc : term.read c = (cell?, next)) (ht : next.display t = (cells, last)) :
    term.display (c :: t) = (cell?.toList ++ cells, last) := by
  simp only [display, hc, ht]

/-- Two texts one behind the other. -/
theorem display_append {term next last : Terminal} {s t : Text} {first second : List Cell}
    (hs : term.display s = (first, next)) (ht : next.display t = (second, last)) :
    term.display (s ++ t) = (first ++ second, last) := by
  induction s generalizing term first with
  | nil =>
      obtain ⟨rfl, rfl⟩ := Prod.mk.inj hs
      exact ht
  | cons c s ih =>
      rcases hc : term.read c with ⟨cell?, mid⟩
      rcases hrest : mid.display s with ⟨cells, behind⟩
      rw [display_cons hc hrest] at hs
      obtain ⟨rfl, rfl⟩ := Prod.mk.inj hs
      rw [List.cons_append, display_cons hc (ih hrest), List.append_assoc]

/-- Text without escapes is shown as it is. -/
theorem display_text (a : CharAttributes) {t : Text} (ht : BmakeHighlight.escape ∉ t) :
    (idle a).display t = (t.map (⟨·, a⟩), idle a) := by
  induction t with
  | nil => rfl
  | cons c t ih =>
      simp only [List.mem_cons, not_or] at ht
      have hread : (idle a).read c = (some ⟨c, a⟩, idle a) := if_neg (Ne.symm ht.1)
      exact display_cons hread (ih ht.2)

/-- Digits go to the value that is being read. -/
theorem display_digits (complete : List Nat) (a : CharAttributes) {t : Text}
    (ht : ∀ c ∈ t, c.isDigit = true) (value : Nat) :
    (⟨.codes complete value, a⟩ : Terminal).display t =
      ([], ⟨.codes complete (Nat.ofDigitChars 10 t value), a⟩) := by
  induction t generalizing value with
  | nil => simp [display]
  | cons c t ih =>
      simp only [List.forall_mem_cons] at ht
      have hread : (⟨.codes complete value, a⟩ : Terminal).read c =
          (none, ⟨.codes complete (10 * value + (c.toNat - '0'.toNat)), a⟩) := if_pos ht.1
      rw [Nat.ofDigitChars_cons]
      exact display_cons hread (ih ht.2 _)

/-- A number in digits is read as that number. -/
theorem display_decimal (complete : List Nat) (a : CharAttributes) (n : Nat) :
    (⟨.codes complete 0, a⟩ : Terminal).display (decimal n) = ([], ⟨.codes complete n, a⟩) := by
  have hdigits : ∀ c ∈ decimal n, c.isDigit = true := fun _ hc => isDigit_of_mem_decimal hc
  rw [display_digits complete a hdigits, decimal, Nat.ofDigitChars_ten_toDigits]

/-- A list of codes up to the end of its sequence. -/
theorem display_codes (complete : List Nat) (a : CharAttributes) {codes : List Nat}
    (hcodes : codes ≠ []) :
    (⟨.codes complete 0, a⟩ : Terminal).display
        (List.intercalate [';'] (codes.map decimal) ++ ['m']) =
      ([], idle (.apply (complete ++ codes) a)) := by
  induction codes generalizing complete with
  | nil => exact absurd rfl hcodes
  | cons n codes ih =>
      have hn := display_decimal complete a n
      cases codes with
      | nil =>
          rw [List.map_singleton, List.intercalate_singleton]
          exact display_append hn rfl
      | cons next codes =>
          have hrest := ih (complete ++ [n]) (List.cons_ne_nil next codes)
          rw [List.append_assoc, List.singleton_append] at hrest
          rw [List.map_cons, List.map_cons, List.intercalate_cons_cons, List.append_assoc,
            List.append_assoc]
          have hbetween : (⟨.codes complete n, a⟩ : Terminal).display [';'] =
              ([], ⟨.codes (complete ++ [n]) 0, a⟩) := rfl
          exact display_append hn (display_append hbetween hrest)

/-- An attribute sequence shows nothing and changes the attributes. -/
theorem display_attributeSequence (a : CharAttributes) {codes : List Nat}
    (hcodes : codes ≠ []) :
    (idle a).display (attributeSequence (codes.map decimal)) = ([], idle (.apply codes a)) := by
  rw [attributeSequence]
  have hbegin : (idle a).display [BmakeHighlight.escape, '['] = ([], ⟨.codes [] 0, a⟩) := rfl
  exact display_append hbegin (display_codes [] a hcodes)

end Terminal

end BmakeHighlight
