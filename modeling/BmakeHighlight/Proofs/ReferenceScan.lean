/-
The references of a fragment.  From the start of the text, and then from the end of
each reference, the next one is the first opening that is closed at all; the first
closer behind it closes it.  So the delimiters come in pairs, a value has no closer in
it, and an opening is only passed over inside a value or when nothing closes it.
-/
import BmakeHighlight.Proofs.SpanBounds

namespace BmakeHighlight

/-- A reference: its offset, the bracket that opens it, its value and the bracket that closes
it. -/
structure Reference where
  start : Nat
  opener : Char
  value : Text
  closer : Char
  opens : isOpener opener = true
  closes : isCloser closer = true
  stays_open : ∀ c ∈ value, isCloser c = false

/-- A reference as it stands in a text. -/
def Reference.text (r : Reference) : Text :=
  '$' :: r.opener :: (r.value ++ [r.closer])

/-- The offset just past the reference. -/
def Reference.stop (r : Reference) : Nat :=
  r.start + r.text.byteSize

/-- The two delimiters of a reference. -/
def Reference.delimiters (r : Reference) : List Span :=
  [⟨.referenceDelimiter, r.start, 2⟩, ⟨.referenceDelimiter, r.start + 2 + r.value.byteSize, 1⟩]

/-- The spans of a reference, next to each other.  An empty value has none. -/
def Reference.spans (r : Reference) : List Span :=
  ⟨.referenceDelimiter, r.start, 2⟩ ::
    ((if r.value = [] then [] else [⟨.referenceValue, r.start + 2, r.value.byteSize⟩]) ++
      [⟨.referenceDelimiter, r.start + 2 + r.value.byteSize, 1⟩])

/-- Does the text begin with a dollar sign and an opener, and is there a closer somewhere behind
them? -/
def Text.OpensReference (t : Text) : Prop :=
  ∃ opener rest, t = '$' :: opener :: rest ∧ isOpener opener = true ∧ ∃ c ∈ rest, isCloser c = true

/-- The references found in a text that starts at `offset`, one behind the other: each is the
first that opens in the text behind the one before it. -/
inductive ReferencesIn : Nat → Text → List Reference → Prop where
  | done {offset : Nat} {t : Text} :
      (∀ front back, t = front ++ back → ¬ Text.OpensReference back) → ReferencesIn offset t []
  | next {offset : Nat} {t : Text} {refs : List Reference} (front rest : Text) (r : Reference) :
      t = front ++ (r.text ++ rest) → r.start = offset + Text.byteSize front →
        (∀ front' back', t = front' ++ back' → Text.OpensReference back' →
          front.length ≤ front'.length) →
        ReferencesIn r.stop rest refs → ReferencesIn offset t (r :: refs)

section Brackets

variable {c : Char}

theorem eq_of_isOpener (h : isOpener c = true) : c = '(' ∨ c = '{' := by
  simpa [isOpener] using h

theorem isCloser_eq_false_of_isOpener (h : isOpener c = true) : isCloser c = false := by
  rcases eq_of_isOpener h with rfl | rfl <;> decide

theorem utf8Size_of_isOpener (h : isOpener c = true) : c.utf8Size = 1 := by
  rcases eq_of_isOpener h with rfl | rfl <;> decide

theorem utf8Size_of_isCloser (h : isCloser c = true) : c.utf8Size = 1 := by
  have hc : c = ')' ∨ c = '}' := by simpa [isCloser] using h
  rcases hc with rfl | rfl <;> decide

theorem takeWhile_append_closer {value : Text} (hvalue : ∀ d ∈ value, isCloser d = false)
    (hc : isCloser c = true) (rest : Text) :
    (value ++ c :: rest).takeWhile (!isCloser ·) = value := by
  have hopen : ∀ d ∈ value, (!isCloser d) = true := by
    intro d hd
    rw [hvalue d hd]
    rfl
  rw [List.takeWhile_append_of_pos hopen, List.takeWhile_cons_of_neg (by simp [hc]),
    List.append_nil]

/-- The first closer of a text and what stands before it are determined by the text. -/
theorem eq_of_append_closer {value value' rest rest' : Text} {closer closer' : Char}
    (h : value ++ closer :: rest = value' ++ closer' :: rest')
    (hvalue : ∀ d ∈ value, isCloser d = false) (hvalue' : ∀ d ∈ value', isCloser d = false)
    (hcloser : isCloser closer = true) (hcloser' : isCloser closer' = true) :
    value = value' ∧ closer = closer' ∧ rest = rest' := by
  have hbefore := takeWhile_append_closer hvalue hcloser rest
  rw [h, takeWhile_append_closer hvalue' hcloser' rest'] at hbefore
  subst hbefore
  exact ⟨rfl, List.cons.inj (List.append_cancel_left h)⟩

end Brackets

namespace Reference

variable {r r' : Reference} {rest rest' : Text}

theorem opensReference (r : Reference) (rest : Text) : Text.OpensReference (r.text ++ rest) :=
  ⟨r.opener, r.value ++ r.closer :: rest, by simp [text], r.opens, r.closer, by simp, r.closes⟩

theorem byteSize_text (r : Reference) : r.text.byteSize = 2 + r.value.byteSize + 1 := by
  have hdollar : Char.utf8Size '$' = 1 := by decide
  rw [text, Text.byteSize_cons, Text.byteSize_cons, Text.byteSize_append, Text.byteSize_cons,
    Text.byteSize_nil, utf8Size_of_isOpener r.opens, utf8Size_of_isCloser r.closes, hdollar]
  omega

/-- At one place of a text there is at most one reference. -/
theorem eq_of_append (htext : r.text ++ rest = r'.text ++ rest') (hstart : r.start = r'.start) :
    r = r' ∧ rest = rest' := by
  obtain ⟨start, opener, value, closer, opens, closes, stays⟩ := r
  obtain ⟨start', opener', value', closer', opens', closes', stays'⟩ := r'
  simp only [text, List.cons_append, List.append_assoc, List.nil_append, List.cons.injEq,
    true_and] at htext
  obtain ⟨rfl, htext⟩ := htext
  obtain ⟨rfl, rfl, rfl⟩ := eq_of_append_closer htext stays stays' closes closes'
  obtain rfl : start = start' := hstart
  exact ⟨rfl, rfl⟩

/-- Where an opening can stand in a text that begins with a reference: at the front, within the
value, or behind the reference. -/
theorem opening_cases {front back : Text} {opener : Char}
    (h : r.text ++ rest = front ++ '$' :: opener :: back) (hopener : isOpener opener = true) :
    front = [] ∨ (2 ≤ Text.byteSize front ∧ Text.byteSize front ≤ r.value.byteSize) ∨
      ∃ front', front = r.text ++ front' ∧ rest = front' ++ '$' :: opener :: back := by
  have hdollar : Char.utf8Size '$' = 1 := by decide
  have hbracket : isOpener '$' = false ∧ isCloser '$' = false := by decide
  have hclosed : ∀ c, isCloser c = false → c ≠ r.closer := by
    rintro c hc rfl
    rw [r.closes] at hc
    exact absurd hc (by decide)
  cases front with
  | nil => exact .inl rfl
  | cons dollar front =>
      right
      simp only [text, List.cons_append, List.append_assoc, List.nil_append, List.cons.injEq] at h
      obtain ⟨rfl, h⟩ := h
      cases front with
      | nil =>
          have hopens := r.opens
          rw [(List.cons.inj h).1, hbracket.1] at hopens
          exact absurd hopens (by decide)
      | cons bracket front =>
          rw [List.cons_append, List.cons.injEq] at h
          obtain ⟨rfl, h⟩ := h
          -- Neither character of the opening can be the closer of the reference.
          rcases List.append_eq_append_iff.1 h with ⟨more, rfl, hsplit⟩ | ⟨more, hvalue, hsplit⟩
          · cases more with
            | nil => exact absurd (List.cons.inj hsplit).1.symm (hclosed _ hbracket.2)
            | cons closer more =>
                rw [List.cons_append, List.cons.injEq] at hsplit
                obtain ⟨rfl, hrest⟩ := hsplit
                exact .inr ⟨more, by simp [text], hrest⟩
          · match more, hsplit with
            | [], hsplit => exact absurd (List.cons.inj hsplit).1 (hclosed _ hbracket.2)
            | [_], hsplit =>
                have hopen := isCloser_eq_false_of_isOpener hopener
                simp only [List.cons_append, List.nil_append, List.cons.injEq] at hsplit
                exact absurd hsplit.2.1 (hclosed _ hopen)
            | first :: second :: more, _ =>
                have hfirst := first.utf8Size_pos
                have hsecond := second.utf8Size_pos
                left
                rw [hvalue, Text.byteSize_append, Text.byteSize_cons, Text.byteSize_cons,
                  Text.byteSize_cons, Text.byteSize_cons, utf8Size_of_isOpener r.opens]
                omega

end Reference

namespace ReferencesIn

variable {offset : Nat} {t : Text} {refs refs' : List Reference}

/-- There is only one way to find references in a text. -/
theorem unique (h : ReferencesIn offset t refs) (h' : ReferencesIn offset t refs') :
    refs = refs' := by
  induction h generalizing refs' with
  | done hnone =>
      cases h' with
      | done _ => rfl
      | next front rest r ht _ _ _ => exact absurd (r.opensReference rest) (hnone _ _ ht)
  | next front rest r ht hstart hfirst _ ih =>
      cases h' with
      | done hnone => exact absurd (r.opensReference rest) (hnone _ _ ht)
      | next front' rest' r' ht' hstart' hfirst' hrest' =>
          have hlength : front.length = front'.length :=
            Nat.le_antisymm (hfirst _ _ ht' (r'.opensReference rest'))
              (hfirst' _ _ ht (r.opensReference rest))
          obtain ⟨rfl, htext⟩ := List.append_inj (ht ▸ ht') hlength
          obtain ⟨rfl, rfl⟩ := Reference.eq_of_append htext (hstart.trans hstart'.symm)
          rw [ih hrest']

/-- A character in front at which nothing opens makes no difference. -/
theorem cons {c : Char} (h : ReferencesIn (offset + c.utf8Size) t refs)
    (hc : ¬ Text.OpensReference (c :: t)) : ReferencesIn offset (c :: t) refs := by
  cases h with
  | done hnone =>
      refine done fun front back hsplit => ?_
      rcases List.cons_eq_append_iff.1 hsplit with ⟨-, rfl⟩ | ⟨front, -, hsplit⟩
      · exact hc
      · exact hnone front back hsplit
  | next front rest r ht hstart hfirst hrest =>
      refine next (c :: front) rest r (by rw [ht]; rfl) ?_ ?_ hrest
      · rw [hstart, Text.byteSize_cons, Nat.add_assoc]
      · intro front' back' hsplit hopens
        rcases List.cons_eq_append_iff.1 hsplit with ⟨-, rfl⟩ | ⟨front', rfl, hsplit'⟩
        · exact absurd hopens hc
        · exact Nat.succ_le_succ (hfirst front' back' hsplit' hopens)

/-- The reference in the text. -/
theorem exists_text (h : ReferencesIn offset t refs) {r : Reference} (hr : r ∈ refs) :
    ∃ front back, t = front ++ (r.text ++ back) ∧ r.start = offset + Text.byteSize front := by
  induction h with
  | done => simp at hr
  | next front rest r' ht hstart _ _ ih =>
      rcases List.mem_cons.1 hr with rfl | hr
      · exact ⟨front, rest, ht, hstart⟩
      · obtain ⟨front', back, hrest, hstart'⟩ := ih hr
        refine ⟨front ++ (r'.text ++ front'), back, ?_, ?_⟩
        · rw [ht, hrest]
          simp
        · rw [hstart', Reference.stop, hstart, Text.byteSize_append, Text.byteSize_append]
          omega

/-- Every opening in the text begins a reference, is within the value of one, or is not closed. -/
theorem opening_cases (h : ReferencesIn offset t refs) {front back : Text} {opener : Char}
    (ht : t = front ++ '$' :: opener :: back) (hopener : isOpener opener = true) :
    (∃ r ∈ refs, r.start = offset + Text.byteSize front) ∨
      (∃ r ∈ refs, r.start + 2 ≤ offset + Text.byteSize front ∧
        offset + Text.byteSize front + 2 ≤ r.start + 2 + r.value.byteSize) ∨
      ∀ c ∈ back, isCloser c = false := by
  induction h generalizing front with
  | done hnone =>
      refine .inr (.inr fun c hc => ?_)
      rw [← Bool.not_eq_true]
      exact fun hcloser => hnone _ _ ht ⟨opener, back, rfl, hopener, c, hc, hcloser⟩
  | @next offset t refs first rest r ht' hstart hfirst _ ih =>
      by_cases hclosed : ∃ c ∈ back, isCloser c = true
      · have hle := hfirst _ _ ht ⟨opener, back, rfl, hopener, hclosed⟩
        obtain ⟨middle, rfl⟩ :=
          List.prefix_of_prefix_length_le ⟨_, ht'.symm⟩ ⟨_, ht.symm⟩ hle
        rw [ht', List.append_assoc, List.append_cancel_left_eq] at ht
        have hbyteSize := r.byteSize_text
        rw [Text.byteSize_append]
        rcases Reference.opening_cases ht hopener with rfl | ⟨hge, hle⟩ | ⟨front, rfl, hrest⟩
        · exact .inl ⟨r, List.mem_cons_self, hstart⟩
        · exact .inr (.inl ⟨r, List.mem_cons_self, by omega, by omega⟩)
        · have hoffset : r.stop + Text.byteSize front =
              offset + (Text.byteSize first + Text.byteSize (r.text ++ front)) := by
            rw [Reference.stop, hstart, Text.byteSize_append]
            omega
          rw [← hoffset]
          rcases ih hrest with ⟨r', hr', h⟩ | ⟨r', hr', h⟩ | h
          · exact .inl ⟨r', List.mem_cons_of_mem r hr', h⟩
          · exact .inr (.inl ⟨r', List.mem_cons_of_mem r hr', h⟩)
          · exact .inr (.inr h)
      · refine .inr (.inr fun c hc => ?_)
        rw [← Bool.not_eq_true]
        exact fun hcloser => hclosed ⟨c, hc, hcloser⟩

end ReferencesIn

/-- A match of the pattern is a reference. -/
theorem exists_reference_of_referenceHere {before : Option Char} {t : Text} {pieces : List Piece}
    (h : referenceHere before t = some pieces) (offset : Nat) :
    ∃ r : Reference, r.start = offset ∧ matchedText pieces = r.text ∧
      spansOf offset pieces = r.spans := by
  obtain ⟨opener, value, closer, rest, -, hopener, hvalue, hcloser, rfl⟩ :=
    @referenceHere_eq_some before _ _ h
  have hdollar : Char.utf8Size '$' = 1 := by decide
  refine ⟨⟨offset, opener, value, closer, hopener, hcloser, hvalue⟩, rfl, ?_, ?_⟩
  · by_cases hnil : value = [] <;> simp [hnil, matchedText, Reference.text]
  · by_cases hnil : value = [] <;>
      simp [hnil, spansOf, Reference.spans, hdollar, utf8Size_of_isOpener hopener,
        utf8Size_of_isCloser hcloser]

theorem referenceHere_eq_none {before : Option Char} {t : Text}
    (h : referenceHere before t = none) : ¬ t.OpensReference := by
  rintro ⟨opener, rest, rfl, hopener, c, hc, hcloser⟩
  simp only [referenceHere, hopener, if_true] at h
  split at h
  · simp at h
  · rename_i hnone
    have hopen := List.dropWhile_eq_nil_iff.1 hnone c hc
    simp [hcloser] at hopen

/-- A scan finds the references of the text. -/
theorem exists_referencesIn_scan (offset : Nat) (before : Option Char) (t : Text) :
    ∃ refs, ReferencesIn offset t refs ∧
      referenceHere.scan offset before 0 t = refs.flatMap Reference.spans := by
  apply Matcher.scan_induction referenceHere_sound
    (motive := fun offset _ t spans => ∃ refs, ReferencesIn offset t refs ∧
      spans = refs.flatMap Reference.spans)
  · intro offset before
    refine ⟨[], .done ?_, rfl⟩
    rintro front back hsplit ⟨opener, rest, rfl, -⟩
    simp at hsplit
  · rintro offset before c t hmiss ⟨refs, hrefs, hspans⟩
    exact ⟨refs, hrefs.cons (referenceHere_eq_none hmiss), hspans⟩
  · rintro offset before pieces rest spans hmatch ⟨refs, hrefs, rfl⟩
    obtain ⟨r, rfl, htext, hspans⟩ := exists_reference_of_referenceHere hmatch offset
    rw [htext] at hrefs ⊢
    refine ⟨r :: refs, .next [] rest r rfl rfl (fun _ _ _ _ => Nat.zero_le _) hrefs, ?_⟩
    rw [hspans, List.flatMap_cons]

section Fragments

variable {f : Fragment} {refs : List Reference}

theorem Reference.filter_delimiter_spans (r : Reference) :
    r.spans.filter (·.category == .referenceDelimiter) = r.delimiters := by
  by_cases hvalue : r.value = [] <;> simp [Reference.spans, Reference.delimiters, hvalue]

theorem Reference.mem_spans_value {r : Reference} {s : Span} (hs : s ∈ r.spans)
    (hcategory : s.category = .referenceValue) :
    r.value ≠ [] ∧ s = ⟨.referenceValue, r.start + 2, r.value.byteSize⟩ := by
  by_cases hvalue : r.value = []
  · have hdelimiter : ∀ s ∈ r.spans, s.category = .referenceDelimiter := by
      simp [Reference.spans, hvalue]
    rw [hdelimiter s hs] at hcategory
    exact absurd hcategory (by decide)
  · refine ⟨hvalue, ?_⟩
    simp only [Reference.spans, hvalue, if_false, List.singleton_append, List.mem_cons,
      List.not_mem_nil, or_false] at hs
    rcases hs with rfl | rfl | rfl
    · exact Category.noConfusion hcategory
    · rfl
    · exact Category.noConfusion hcategory

/-- The value of a reference in the text that it is found in. -/
theorem ReferencesIn.slice?_value (h : ReferencesIn f.start f.text refs) {r : Reference}
    (hr : r ∈ refs) :
    f.text.slice? (r.start + 2 - f.start) (r.start + 2 + r.value.byteSize - f.start) =
      some r.value := by
  obtain ⟨front, back, htext, hstart⟩ := h.exists_text hr
  have hdollar : Char.utf8Size '$' = 1 := by decide
  rw [Text.slice?_eq_some_iff]
  refine ⟨front ++ ['$', r.opener], r.closer :: back, by simp [htext, Reference.text], ?_, ?_⟩
  · rw [Text.byteSize_append, Text.byteSize_cons, Text.byteSize_cons, Text.byteSize_nil, hdollar,
      utf8Size_of_isOpener r.opens]
    omega
  · omega

end Fragments

/-- The references of a fragment that no comment opens.  Their spans are those of the references in
its text, of which there is only one possible list: so the delimiters come in pairs, there is no
closer in a value, and every opening in the text begins a reference, is within a value, or has no
closer anywhere behind it. -/
theorem Fragment.classify_references {f : Fragment} (hopens : f.opensWithComment = false) :
    ∃ refs, ReferencesIn f.start f.text refs ∧
      (∀ refs', ReferencesIn f.start f.text refs' → refs' = refs) ∧
      f.classify.filter (fun s => s.category == .referenceDelimiter ||
        s.category == .referenceValue) = refs.flatMap Reference.spans ∧
      f.classify.filter (·.category == .referenceDelimiter) =
        refs.flatMap Reference.delimiters ∧
      (∀ s ∈ f.classify, s.category = .referenceValue →
        ∃ value, f.text.slice? (s.start - f.start) (s.stop - f.start) = some value ∧
          value ≠ [] ∧ ∀ c ∈ value, isCloser c = false) ∧
      ∀ front opener back, f.text = front ++ '$' :: opener :: back → isOpener opener = true →
        ⟨.referenceDelimiter, f.start + Text.byteSize front, 2⟩ ∈ f.classify ∨
          (∃ s ∈ f.classify, s.category = .referenceValue ∧
            s.start ≤ f.start + Text.byteSize front ∧
            f.start + Text.byteSize front + 2 ≤ s.stop) ∨
          ∀ c ∈ back, isCloser c = false := by
  obtain ⟨refs, hrefs, hscan⟩ := exists_referencesIn_scan f.start none f.text
  have hpass : ∀ s : Span, (s.category == .referenceDelimiter || s.category == .referenceValue) =
      (s.category.pass == .reference) := by
    intro s
    cases s.category <;> decide
  have hspans : f.classify.filter (fun s => s.category == .referenceDelimiter ||
      s.category == .referenceValue) = refs.flatMap Reference.spans := by
    simp only [hpass]
    rw [filter_classify_pass hopens, ← hscan]
    rfl
  have hmem : ∀ r ∈ refs, ∀ s ∈ r.spans, s ∈ f.classify := by
    intro r hr s hs
    have hs' : s ∈ refs.flatMap Reference.spans := List.mem_flatMap.2 ⟨r, hr, hs⟩
    rw [← hspans] at hs'
    exact List.mem_of_mem_filter hs'
  refine ⟨refs, hrefs, fun refs' hrefs' => hrefs'.unique hrefs, hspans, ?_, ?_, ?_⟩
  · have hdelimiter : ∀ s : Span, (s.category == .referenceDelimiter) =
        (s.category == .referenceDelimiter &&
          (s.category == .referenceDelimiter || s.category == .referenceValue)) := by
      intro s
      cases s.category <;> decide
    rw [List.filter_congr fun s _ => hdelimiter s, ← List.filter_filter, hspans,
      List.filter_flatMap]
    exact List.flatMap_congr fun r _ => r.filter_delimiter_spans
  · intro s hs hcategory
    have hs' : s ∈ refs.flatMap Reference.spans := by
      rw [← hspans, List.mem_filter]
      exact ⟨hs, by rw [hcategory]; rfl⟩
    obtain ⟨r, hr, hs'⟩ := List.mem_flatMap.1 hs'
    obtain ⟨hvalue, rfl⟩ := Reference.mem_spans_value hs' hcategory
    exact ⟨r.value, hrefs.slice?_value hr, hvalue, r.stays_open⟩
  · intro front opener back htext hopener
    rcases hrefs.opening_cases htext hopener with ⟨r, hr, hstart⟩ | ⟨r, hr, hge, hle⟩ | hopen
    · left
      rw [← hstart]
      exact hmem r hr _ List.mem_cons_self
    · right
      left
      have hvalue : r.value ≠ [] := by
        intro hnil
        rw [hnil, Text.byteSize_nil] at hle
        omega
      refine ⟨⟨.referenceValue, r.start + 2, r.value.byteSize⟩, hmem r hr _ ?_, rfl, hge, hle⟩
      simp [Reference.spans, hvalue]
    · exact .inr (.inr hopen)

/-- An opening within a value that the other kind of opener begins, a reference without a value, a
value over two lines, and an opening without a closer. -/
theorem Fragment.classify_references_nested_opening :
    let f : Fragment := ⟨"$\x7ba$(b) $() é$\x7bc\n\x7d $(".toList, 3⟩
    f.opensWithComment = false ∧
      (∃ refs, ReferencesIn f.start f.text refs ∧ refs.flatMap Reference.spans =
        [⟨.referenceDelimiter, 3, 2⟩, ⟨.referenceValue, 5, 4⟩, ⟨.referenceDelimiter, 9, 1⟩,
          ⟨.referenceDelimiter, 11, 2⟩, ⟨.referenceDelimiter, 13, 1⟩,
          ⟨.referenceDelimiter, 17, 2⟩, ⟨.referenceValue, 19, 2⟩, ⟨.referenceDelimiter, 21, 1⟩]) ∧
      (∃ value, f.text.slice? 2 6 = some value ∧ value ≠ [] ∧ ∀ c ∈ value, isCloser c = false) ∧
      ∃ s ∈ f.classify, s.category = .referenceValue ∧ s.start ≤ 6 ∧ 8 ≤ s.stop := by
  intro f
  have hopens : f.opensWithComment = false := by decide
  obtain ⟨refs, hrefs, -, hspans, -, hvalues, hopening⟩ := classify_references hopens
  refine ⟨hopens, ⟨refs, hrefs, hspans.symm.trans (by decide)⟩,
    hvalues ⟨.referenceValue, 5, 4⟩ (by decide) rfl, ?_⟩
  rcases hopening "$\x7ba".toList '(' "b) $() é$\x7bc\n\x7d $(".toList (by decide) rfl
    with h | h | h
  · exact absurd h (by decide)
  · exact h
  · exact absurd (h ')' (by decide)) (by decide)

end BmakeHighlight
