/-
The string literals of a fragment.  A fragment is cut into stretches at every line feed and
carriage return.  Within each stretch the quotes are taken two at a time from the left, and
the last of an odd number is left over.  What is left over in one stretch has no part in
another.
-/
import BmakeHighlight.Proofs.Placement

namespace BmakeHighlight

/-- A character that ends a line or belongs to the end of one. -/
def isLineEnd (c : Char) : Bool :=
  lineEnds.contains c

/-- Parts of a text with one byte between any two, laid out from an offset on. -/
def laidApart : Nat → List Text → List Fragment
  | _, [] => []
  | offset, part :: rest => ⟨part, offset⟩ :: laidApart (offset + Text.byteSize part + 1) rest

/-- The stretches between the line ends of a text that starts at `offset`. -/
def stretchesFrom (offset : Nat) (t : Text) : List Fragment :=
  laidApart offset (t.splitOnP isLineEnd)

/-- The stretches of a fragment between its line ends.  There may be nothing in one. -/
def Fragment.stretches (f : Fragment) : List Fragment :=
  stretchesFrom f.start f.text

/-- Is this a whole stretch of the fragment?  No line end is in it, and nothing but a line end is
next to it. -/
def Fragment.HasStretch (f p : Fragment) : Prop :=
  ∃ front back, f.text = front ++ (p.text ++ back) ∧ p.start = f.start + Text.byteSize front ∧
    (∀ c ∈ p.text, isLineEnd c = false) ∧ (∀ c ∈ front.getLast?, isLineEnd c = true) ∧
    ∀ c ∈ back.head?, isLineEnd c = true

/-- The offsets of the double quotes in a text that starts at `offset`. -/
def quotesFrom : Nat → Text → List Nat
  | _, [] => []
  | offset, c :: t =>
      if c = '"' then offset :: quotesFrom (offset + c.utf8Size) t
      else quotesFrom (offset + c.utf8Size) t

/-- The offsets of the double quotes in a fragment. -/
def Fragment.quotes (f : Fragment) : List Nat :=
  quotesFrom f.start f.text

/-- The literal from one quote through another. -/
def literalOver (first last : Nat) : Span :=
  ⟨.stringLiteral, first, last + 1 - first⟩

/-- The literals that quotes make up, two by two. -/
def literalsOf : List Nat → List Span
  | [] => []
  | [_] => []
  | first :: last :: rest => literalOver first last :: literalsOf rest

section Stretches

variable {offset : Nat} {body rest t : Text} {c : Char} {p : Fragment}

theorem mem_lineEnds_of_isLineEnd (hc : isLineEnd c = true) : c ∈ lineEnds := by
  simpa [isLineEnd] using hc

theorem utf8Size_of_isLineEnd (hc : isLineEnd c = true) : c.utf8Size = 1 := by
  have hsize : ∀ c ∈ lineEnds, c.utf8Size = 1 := forall_mem_lineEnds.2 (by decide)
  exact hsize c (mem_lineEnds_of_isLineEnd hc)

theorem stretchesFrom_of_forall (hbody : ∀ c ∈ body, isLineEnd c = false) (offset : Nat) :
    stretchesFrom offset body = [⟨body, offset⟩] := by
  rw [stretchesFrom, List.splitOnP_eq_singleton hbody]
  rfl

theorem stretchesFrom_append (hbody : ∀ c ∈ body, isLineEnd c = false)
    (hc : isLineEnd c = true) (rest : Text) (offset : Nat) :
    stretchesFrom offset (body ++ c :: rest) =
      ⟨body, offset⟩ :: stretchesFrom (offset + Text.byteSize (body ++ [c])) rest := by
  have hsize : Text.byteSize (body ++ [c]) = Text.byteSize body + 1 := by
    rw [Text.byteSize_append, Text.byteSize_cons, utf8Size_of_isLineEnd hc, Text.byteSize_nil]
  rw [stretchesFrom, List.splitOnP_append_cons body rest hc, List.splitOnP_eq_singleton hbody,
    hsize, ← Nat.add_assoc]
  rfl

/-- A text by its stretches. -/
theorem stretches_induction {motive : Text → Prop}
    (last : ∀ body, (∀ c ∈ body, isLineEnd c = false) → motive body)
    (more : ∀ body c rest, (∀ d ∈ body, isLineEnd d = false) → isLineEnd c = true →
      motive rest → motive (body ++ c :: rest))
    (t : Text) : motive t := by
  induction hlen : t.length using Nat.strongRecOn generalizing t with
  | ind n ih =>
      cases hfind : t.find? isLineEnd with
      | none =>
          refine last t fun c hc => ?_
          simpa using List.find?_eq_none.1 hfind c hc
      | some c =>
          obtain ⟨hc, body, rest, rfl, hbody⟩ := List.find?_eq_some_iff_append.1 hfind
          refine more body c rest (fun d hd => by simpa using hbody d hd) hc
            (ih rest.length ?_ rest rfl)
          rw [List.length_append, List.length_cons] at hlen
          omega

/-- The first line end of a text and what stands before it are determined by the text. -/
theorem eq_of_append_lineEnd {body' back : Text} (h : body ++ c :: rest = body' ++ back)
    (hbody : ∀ d ∈ body, isLineEnd d = false) (hbody' : ∀ d ∈ body', isLineEnd d = false)
    (hc : isLineEnd c = true) (hback : ∀ d ∈ back.head?, isLineEnd d = true) : body = body' := by
  have hrun : ∀ {u : Text} {d : Char} (v : Text), (∀ e ∈ u, isLineEnd e = false) →
      isLineEnd d = true → (u ++ d :: v).takeWhile (!isLineEnd ·) = u := by
    intro u d v hu hd
    rw [takeWhile_append_cons_of_neg (by simp [hd]), List.takeWhile_eq_self_iff]
    intro e he
    simp [hu e he]
  cases back with
  | nil =>
      have hmem : c ∈ body' := by
        rw [List.append_nil] at h
        rw [← h]
        exact List.mem_append_right body List.mem_cons_self
      rw [hbody' c hmem] at hc
      exact absurd hc (by decide)
  | cons d back =>
      have htake := hrun rest hbody hc
      rw [h, hrun back hbody' (hback d rfl)] at htake
      exact htake.symm

/-- A text without line ends does not end in one. -/
theorem eq_nil_of_getLast? (ht : ∀ c ∈ t, isLineEnd c = false)
    (hlast : ∀ c ∈ t.getLast?, isLineEnd c = true) : t = [] := by
  by_contra hne
  have hend := hlast _ (List.getLast?_eq_some_getLast hne)
  rw [ht _ (List.getLast_mem hne)] at hend
  exact absurd hend (by decide)

/-- The stretches of a text are its parts without line ends that have nothing but line ends next
to them. -/
theorem mem_stretchesFrom_iff : p ∈ stretchesFrom offset t ↔ Fragment.HasStretch ⟨t, offset⟩ p := by
  obtain ⟨text, start⟩ := p
  induction t using stretches_induction generalizing offset with
  | last body hbody =>
      rw [stretchesFrom_of_forall hbody, List.mem_singleton, Fragment.mk.injEq]
      constructor
      · rintro ⟨rfl, rfl⟩
        exact ⟨[], [], by simp, rfl, hbody, by simp, by simp⟩
      · rintro ⟨front, back, htext, hstart, -, hfront, hback⟩
        dsimp only at htext hstart
        have hnil : front = [] := by
          refine eq_nil_of_getLast? (fun c hc => hbody c ?_) hfront
          rw [htext]
          exact List.mem_append_left _ hc
        subst hnil
        cases back with
        | nil => exact ⟨by simpa using htext.symm, hstart⟩
        | cons c back =>
            have hc : isLineEnd c = false := hbody c (by simp [htext])
            rw [hback c rfl] at hc
            exact absurd hc (by decide)
  | more body c rest hbody hc ih =>
      have hsize : ∀ behind, Text.byteSize (body ++ c :: behind) =
          Text.byteSize (body ++ [c]) + Text.byteSize behind := by
        intro behind
        rw [List.append_cons, Text.byteSize_append]
      rw [stretchesFrom_append hbody hc, List.mem_cons, ih, Fragment.mk.injEq]
      constructor
      · rintro (⟨rfl, rfl⟩ | ⟨front, back, htext, hstart, hp, hfront, hback⟩)
        · exact ⟨[], c :: rest, rfl, rfl, hbody, by simp, by simpa using hc⟩
        · dsimp only at htext hstart
          refine ⟨body ++ c :: front, back, by simp [htext], ?_, hp, ?_, hback⟩
          · dsimp only
            rw [hstart, hsize front, Nat.add_assoc]
          · rw [List.append_cons, List.getLast?_append]
            cases hlast : front.getLast? with
            | none => simpa using hc
            | some d => simpa using hfront d hlast
      · rintro ⟨front, back, htext, hstart, hp, hfront, hback⟩
        dsimp only at htext hstart hp
        have hhead : (∀ d ∈ front, isLineEnd d = false) → text = body ∧ start = offset := by
          intro hnone
          obtain rfl := eq_nil_of_getLast? hnone hfront
          rw [List.nil_append] at htext
          exact ⟨(eq_of_append_lineEnd htext hbody hp hc hback).symm, hstart⟩
        rcases List.append_eq_append_iff.1 htext with ⟨more, hmore, hrest⟩ | ⟨more, hmore, -⟩
        · cases more with
          | nil =>
              left
              rw [List.append_nil] at hmore
              exact hhead fun d hd => hbody d (hmore ▸ hd)
          | cons d more =>
              rw [List.cons_append, List.cons.injEq] at hrest
              obtain ⟨rfl, hrest⟩ := hrest
              right
              refine ⟨more, back, hrest, ?_, hp, fun d hd => hfront d ?_, hback⟩
              · dsimp only
                rw [hstart, hmore, hsize more, Nat.add_assoc]
              · rw [hmore, List.append_cons, List.getLast?_append, Option.mem_def.1 hd]
                rfl
        · left
          exact hhead fun d hd => hbody d (hmore ▸ List.mem_append_left more hd)

/-- Stretches are in the order of the text, with something between any two. -/
theorem stretchesFrom_pairwise (offset : Nat) (t : Text) :
    (stretchesFrom offset t).Pairwise fun a b => a.stop < b.start := by
  induction t using stretches_induction generalizing offset with
  | last body hbody =>
      rw [stretchesFrom_of_forall hbody]
      exact List.pairwise_singleton _ _
  | more body c rest hbody hc ih =>
      rw [stretchesFrom_append hbody hc, List.pairwise_cons]
      refine ⟨fun p hp => ?_, ih _⟩
      obtain ⟨front, back, -, hstart, -⟩ := mem_stretchesFrom_iff.1 hp
      have hpos := c.utf8Size_pos
      rw [hstart, Fragment.stop, Text.byteSize_append, Text.byteSize_cons]
      dsimp only
      omega

end Stretches

section Quotes

variable {offset q : Nat} {t : Text} {quotes : List Nat} {s : Span}

theorem utf8Size_quote : Char.utf8Size '"' = 1 := by
  decide

theorem quotesFrom_append (offset : Nat) (s t : Text) :
    quotesFrom offset (s ++ t) =
      quotesFrom offset s ++ quotesFrom (offset + Text.byteSize s) t := by
  induction s generalizing offset with
  | nil => rfl
  | cons c s ih =>
      rw [List.cons_append, quotesFrom, quotesFrom, ih, Text.byteSize_cons, Nat.add_assoc]
      split <;> rfl

theorem mem_quotesFrom_iff :
    q ∈ quotesFrom offset t ↔
      ∃ front back, t = front ++ '"' :: back ∧ q = offset + Text.byteSize front := by
  constructor
  · induction t generalizing offset with
    | nil => simp [quotesFrom]
    | cons c t ih =>
        have hmore : q ∈ quotesFrom (offset + c.utf8Size) t →
            ∃ front back, c :: t = front ++ '"' :: back ∧ q = offset + Text.byteSize front := by
          intro hq
          obtain ⟨front, back, rfl, rfl⟩ := ih hq
          exact ⟨c :: front, back, rfl, by rw [Text.byteSize_cons, Nat.add_assoc]⟩
        rw [quotesFrom]
        split
        · rename_i hc
          subst hc
          rw [List.mem_cons]
          rintro (rfl | hq)
          · exact ⟨[], t, rfl, rfl⟩
          · exact hmore hq
        · exact hmore
  · rintro ⟨front, back, rfl, rfl⟩
    rw [quotesFrom_append, quotesFrom, if_pos rfl]
    exact List.mem_append_right _ List.mem_cons_self

theorem quotesFrom_eq_nil (h : '"' ∉ t) (offset : Nat) : quotesFrom offset t = [] := by
  rw [List.eq_nil_iff_forall_not_mem]
  intro q hq
  obtain ⟨front, back, rfl, -⟩ := mem_quotesFrom_iff.1 hq
  exact h (List.mem_append_right front List.mem_cons_self)

theorem quotesFrom_pairwise (offset : Nat) (t : Text) :
    (quotesFrom offset t).Pairwise (· < ·) := by
  induction t generalizing offset with
  | nil => exact List.Pairwise.nil
  | cons c t ih =>
      rw [quotesFrom]
      split
      · rw [List.pairwise_cons]
        refine ⟨fun q hq => ?_, ih _⟩
        obtain ⟨front, back, -, rfl⟩ := mem_quotesFrom_iff.1 hq
        have hpos := c.utf8Size_pos
        omega
      · exact ih _

theorem length_literalsOf (quotes : List Nat) :
    (literalsOf quotes).length = quotes.length / 2 := by
  induction quotes using literalsOf.induct with
  | case1 => rfl
  | case2 first => simp [literalsOf]
  | case3 first last rest ih =>
      rw [literalsOf, List.length_cons, ih, List.length_cons, List.length_cons]
      omega

/-- The literal at an index is made of the quotes at twice the index and next to it. -/
theorem getElem?_literalsOf (quotes : List Nat) (k : Nat) :
    (literalsOf quotes)[k]? =
      quotes[2 * k]?.bind fun first => quotes[2 * k + 1]?.map (literalOver first) := by
  induction quotes using literalsOf.induct generalizing k with
  | case1 => rfl
  | case2 first => cases k <;> rfl
  | case3 first last rest ih =>
      cases k with
      | zero => rfl
      | succ k =>
          rw [literalsOf, List.getElem?_cons_succ, ih]
          rfl

/-- The last of an odd number of quotes is behind all literals. -/
theorem stop_le_of_mem_literalsOf (hquotes : quotes.Pairwise (· < ·))
    (hodd : quotes.length % 2 = 1) (hq : q ∈ quotes.getLast?) (hs : s ∈ literalsOf quotes) :
    s.stop ≤ q := by
  induction quotes using literalsOf.induct with
  | case1 => simp [literalsOf] at hs
  | case2 first => simp [literalsOf] at hs
  | case3 first last rest ih =>
      rw [List.length_cons, List.length_cons] at hodd
      have hodd' : rest.length % 2 = 1 := by omega
      have hne : rest ≠ [] := by
        rintro rfl
        exact absurd hodd' (by decide)
      have hlast : q ∈ rest.getLast? := by
        rwa [List.getLast?_cons_cons, List.getLast?_cons_of_ne_nil hne] at hq
      rcases List.mem_cons.1 hs with rfl | hs
      · have hlt := (List.pairwise_cons.1 hquotes).1 last List.mem_cons_self
        have hlt' := (List.pairwise_cons.1 hquotes.of_cons).1 q (List.mem_of_mem_getLast? hlast)
        rw [Span.stop, literalOver]
        dsimp only
        omega
      · exact ih hquotes.of_cons.of_cons hodd' hlast hs

end Quotes

section Scan

variable {before : Option Char} {t body : Text} {c : Char} {f p : Fragment}

theorem isStringChar_iff : isStringChar c = true ↔ c ≠ '"' ∧ isLineEnd c = false := by
  simp [isStringChar, isLineEnd, lineEnds, and_assoc]

/-- Where no line end can stop it, a quote begins a literal if there is another one behind it. -/
theorem stringLiteralHere_eq_none (h : stringLiteralHere before ('"' :: t) = none)
    (ht : ∀ c ∈ t, isLineEnd c = false) : '"' ∉ t := by
  intro hquote
  obtain ⟨body, rest, rfl, hbody⟩ := List.eq_append_cons_of_mem hquote
  have hstring : ∀ c ∈ body, isStringChar c = true := by
    intro c hc
    refine isStringChar_iff.2 ⟨?_, ht c (List.mem_append_left _ hc)⟩
    rintro rfl
    exact hbody hc
  have hdrop : (body ++ '"' :: rest).dropWhile isStringChar = '"' :: rest := by
    rw [dropWhile_append_cons_of_neg (by decide), List.dropWhile_eq_nil_iff.2 hstring]
    rfl
  simp [stringLiteralHere, hdrop] at h

/-- A literal has its own two quotes and no others. -/
theorem quotesFrom_literal (hbody : '"' ∉ body) (offset : Nat) :
    quotesFrom offset ('"' :: (body ++ ['"'])) = [offset, offset + 1 + Text.byteSize body] := by
  rw [quotesFrom, if_pos rfl, utf8Size_quote, quotesFrom_append, quotesFrom_eq_nil hbody]
  rfl

/-- In a text without line ends the literals are made of the quotes, two by two. -/
theorem scan_stringLiteralHere (offset : Nat) (before : Option Char) {t : Text}
    (ht : ∀ c ∈ t, isLineEnd c = false) :
    stringLiteralHere.scan offset before 0 t = literalsOf (quotesFrom offset t) := by
  revert ht
  apply Matcher.scan_induction stringLiteralHere_sound
    (motive := fun offset _ t spans => (∀ c ∈ t, isLineEnd c = false) →
      spans = literalsOf (quotesFrom offset t))
  · intro offset before _
    rfl
  · intro offset before c t hmiss ih ht
    rw [List.forall_mem_cons] at ht
    rw [ih ht.2, quotesFrom]
    split
    · rename_i hc
      subst hc
      rw [quotesFrom_eq_nil (stringLiteralHere_eq_none hmiss ht.2)]
      rfl
    · rfl
  · intro offset before pieces rest spans hmatch ih ht
    obtain ⟨body, rest', -, hbody, rfl⟩ := @stringLiteralHere_eq_some before _ _ hmatch
    have hmatched : matchedText [⟨.stringLiteral, '"' :: (body ++ ['"'])⟩] =
        '"' :: (body ++ ['"']) := by simp [matchedText]
    have hsize : Text.byteSize ('"' :: (body ++ ['"'])) = Text.byteSize body + 2 := by
      rw [Text.byteSize_cons, Text.byteSize_append, Text.byteSize_cons, Text.byteSize_nil,
        utf8Size_quote]
      omega
    have hlen : offset + 1 + Text.byteSize body + 1 - offset = Text.byteSize body + 2 := by omega
    have hnone : '"' ∉ body := fun h => (isStringChar_iff.1 (hbody _ h)).1 rfl
    rw [hmatched] at ih ht ⊢
    rw [quotesFrom_append, quotesFrom_literal hnone,
      ih fun c hc => ht c (List.mem_append_right _ hc)]
    simp only [List.cons_append, List.nil_append, literalsOf, literalOver, spansOf, hsize, hlen]

/-- The literals of a text are those of its stretches. -/
theorem scan_stringLiteralHere_eq_flatMap (offset : Nat) (t : Text) :
    stringLiteralHere.scan offset none 0 t =
      (stretchesFrom offset t).flatMap fun p => literalsOf p.quotes := by
  induction t using stretches_induction generalizing offset with
  | last body hbody =>
      rw [stretchesFrom_of_forall hbody, List.flatMap_singleton, scan_stringLiteralHere _ _ hbody]
      rfl
  | more body c rest hbody hc ih =>
      have hstops := stringLiteralHere_stopsAt (mem_lineEnds_of_isLineEnd hc)
      rw [stretchesFrom_append hbody hc, List.flatMap_cons, ← ih,
        hstops.scan_append stringLiteralHere_sound, scan_stringLiteralHere _ _ hbody]
      rfl

theorem Fragment.mem_stretches_iff : p ∈ f.stretches ↔ f.HasStretch p :=
  mem_stretchesFrom_iff

theorem Fragment.quote_bounds {q : Nat} (hq : q ∈ f.quotes) : f.start ≤ q ∧ q < f.stop := by
  obtain ⟨front, back, htext, rfl⟩ := mem_quotesFrom_iff.1 hq
  rw [Fragment.stop, htext, Text.byteSize_append, Text.byteSize_cons, utf8Size_quote]
  omega

/-- The literals of a stretch lie in it. -/
theorem Fragment.literal_liesIn (hp : f.HasStretch p) {s : Span} (hs : s ∈ literalsOf p.quotes) :
    s.LiesIn p := by
  obtain ⟨-, -, -, -, hbody, -⟩ := hp
  rw [Fragment.quotes, ← scan_stringLiteralHere p.start none hbody] at hs
  exact (Matcher.scan_cutFrom stringLiteralHere_sound p.start none p.text).liesIn hs

/-- The quote that is left over in a stretch is in no literal of any stretch. -/
theorem Fragment.not_covers_of_odd (hp : p ∈ f.stretches) (hodd : p.quotes.length % 2 = 1)
    {q : Nat} (hq : q ∈ p.quotes.getLast?) {s : Span}
    (hs : s ∈ f.stretches.flatMap fun p => literalsOf p.quotes) : s.covers q = false := by
  obtain ⟨other, hother, hs⟩ := List.mem_flatMap.1 hs
  rw [← Bool.not_eq_true, Span.covers_iff]
  by_cases heq : other = p
  · subst heq
    have hle := stop_le_of_mem_literalsOf (quotesFrom_pairwise _ _) hodd hq hs
    omega
  · have hbounds := quote_bounds (List.mem_of_mem_getLast? hq)
    have hlies := literal_liesIn (mem_stretches_iff.1 hother) hs
    have hstart := hlies.start_le
    have hstop := hlies.stop_le
    have happart := apart_of_pairwise (stretchesFrom_pairwise _ _) hother hp heq
    omega

end Scan

/-- The string literals of a fragment that no comment opens.  They are those of its stretches, in
this order.  In each stretch the first quote begins a literal that goes through the second, the
third one that goes through the fourth, and so on; the last of an odd number of quotes is in no
literal at all. -/
theorem Fragment.classify_stringLiterals {f : Fragment} (hopens : f.opensWithComment = false) :
    let literals := f.classify.filter (·.category == .stringLiteral)
    (∀ p, p ∈ f.stretches ↔ f.HasStretch p) ∧
      (f.stretches.Pairwise fun a b => a.stop < b.start) ∧
      literals = f.stretches.flatMap (fun p => literalsOf p.quotes) ∧
      (∀ p : Fragment, (p.quotes.Pairwise fun a b => a < b) ∧
        (∀ q, q ∈ p.quotes ↔ ∃ front back, p.text = front ++ '"' :: back ∧
          q = p.start + Text.byteSize front) ∧
        (literalsOf p.quotes).length = p.quotes.length / 2 ∧
        ∀ k, (literalsOf p.quotes)[k]? =
          p.quotes[2 * k]?.bind fun first => p.quotes[2 * k + 1]?.map (literalOver first)) ∧
      ∀ p ∈ f.stretches, p.quotes.length % 2 = 1 → ∀ q ∈ p.quotes.getLast?,
        ∀ s ∈ literals, s.covers q = false := by
  intro literals
  have hliterals : literals = f.stretches.flatMap fun p => literalsOf p.quotes :=
    (filter_classify_eq_scan hopens rfl).trans
      (scan_stringLiteralHere_eq_flatMap f.start f.text)
  refine ⟨fun p => mem_stretches_iff, stretchesFrom_pairwise _ _, hliterals, fun p => ?_, ?_⟩
  · exact ⟨quotesFrom_pairwise _ _, fun q => mem_quotesFrom_iff, length_literalsOf _,
      getElem?_literalsOf _⟩
  · intro p hp hodd q hq s hs
    rw [hliterals] at hs
    exact not_covers_of_odd hp hodd hq hs

/-- Three quotes in a line that a carriage return and a line feed end, none in the stretch between
these, and two literals next to each other in the next line. -/
theorem Fragment.classify_stringLiterals_left_over :
    let f : Fragment := ⟨"é\"a\" \"#\r\n\"\"\"b=\"".toList, 4⟩
    let literals := f.classify.filter (·.category == .stringLiteral)
    let first : Fragment := ⟨"é\"a\" \"#".toList, 4⟩
    f.opensWithComment = false ∧
      literals = [⟨.stringLiteral, 6, 3⟩, ⟨.stringLiteral, 14, 2⟩, ⟨.stringLiteral, 16, 4⟩] ∧
      f.HasStretch first ∧ first.quotes = [6, 8, 10] ∧ ∀ s ∈ literals, s.covers 10 = false := by
  intro f literals first
  have hopens : f.opensWithComment = false := by decide
  have hfirst : first ∈ f.stretches := by decide
  obtain ⟨hstretches, -, hliterals, -, hodd⟩ := classify_stringLiterals hopens
  exact ⟨hopens, hliterals.trans (by decide), (hstretches first).1 hfirst, by decide,
    hodd first hfirst (by decide) 10 (by decide)⟩

end BmakeHighlight
