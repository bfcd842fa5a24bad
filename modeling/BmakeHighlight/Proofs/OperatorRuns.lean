/-
The operators of a fragment.  Of `n` bars or ampersands in a row every two from the left
make one operator, and the last of an odd number is left over.  Every equals sign is an
operator, together with an exclamation mark right before it, and so is every plus sign.
-/
import Mathlib.Data.List.DropRight
import BmakeHighlight.Proofs.Placement

namespace BmakeHighlight

/-- A character that makes an operator when it stands twice. -/
def isDoubled (c : Char) : Bool :=
  c == '|' || c == '&'

/-- In the text, `n` times the same character between two parts that do not go on with it. -/
structure Text.RunAt (t front : Text) (c : Char) (n : Nat) (back : Text) : Prop where
  text_eq : t = front ++ (List.replicate n c ++ back)
  front_ne : front.getLast? ≠ some c
  back_ne : back.head? ≠ some c

/-- The spans of the operators in a fragment. -/
inductive Fragment.HasOperator (f : Fragment) : Span → Prop where
  | doubled {front back : Text} {c : Char} {n k : Nat} : isDoubled c = true →
      f.text.RunAt front c n back → k < n / 2 →
        f.HasOperator ⟨.operator, f.start + Text.byteSize front + 2 * k, 2⟩
  | notEqual {front back : Text} : f.text = front ++ '!' :: '=' :: back →
      f.HasOperator ⟨.operator, f.start + Text.byteSize front, 2⟩
  | equal {front back : Text} : f.text = front ++ '=' :: back → front.getLast? ≠ some '!' →
      f.HasOperator ⟨.operator, f.start + Text.byteSize front, 1⟩
  | plus {front back : Text} : f.text = front ++ '+' :: back →
      f.HasOperator ⟨.operator, f.start + Text.byteSize front, 1⟩

/-- How many times a character stands at the end of a text. -/
def Text.endRun (c : Char) (t : Text) : Nat :=
  (t.rtakeWhile (· == c)).length

/-- Where the operators stand.  Before a doubled character an even number of the same has been
used up. -/
inductive OperatorAt : Text → Text → Text → Prop where
  | doubled {front behind : Text} {c : Char} : isDoubled c = true →
      Text.endRun c front % 2 = 0 → OperatorAt front [c, c] behind
  | notEqual {front behind : Text} : OperatorAt front ['!', '='] behind
  | equal {front behind : Text} : front.getLast? ≠ some '!' → OperatorAt front ['='] behind
  | plus {front behind : Text} : OperatorAt front ['+'] behind

/-- What a scan for operators can rely on: it is not in the middle of one. -/
structure OperatorReady (front t : Text) : Prop where
  even : ∀ c, isDoubled c = true → t.head? = some c → Text.endRun c front % 2 = 0
  not_after : t.head? = some '=' → front.getLast? ≠ some '!'

section Runs

variable {c d : Char} {t front back : Text} {n : Nat}

theorem Text.endRun_concat (c d : Char) (t : Text) :
    Text.endRun c (t ++ [d]) = if d = c then Text.endRun c t + 1 else 0 := by
  rw [endRun, endRun, List.rtakeWhile_concat]
  by_cases h : d = c <;> simp [h]

theorem Text.endRun_eq_zero (h : t.getLast? ≠ some c) : Text.endRun c t = 0 := by
  cases hlast : t.getLast? with
  | none =>
      rw [List.getLast?_eq_none_iff.1 hlast]
      rfl
  | some d =>
      obtain ⟨init, rfl⟩ := List.getLast?_eq_some_iff.1 hlast
      rw [endRun_concat, if_neg]
      rintro rfl
      exact h hlast

theorem Text.endRun_append_replicate (h : front.getLast? ≠ some c) (n : Nat) :
    Text.endRun c (front ++ List.replicate n c) = n := by
  induction n with
  | zero => simpa using endRun_eq_zero h
  | succ n ih =>
      rw [List.replicate_succ', ← List.append_assoc, endRun_concat, if_pos rfl, ih]

/-- The part before the equal characters at the end of a text. -/
theorem Text.exists_endRun (c : Char) (t : Text) :
    ∃ front, t = front ++ List.replicate (Text.endRun c t) c ∧ front.getLast? ≠ some c := by
  refine ⟨t.rdropWhile (· == c), ?_, ?_⟩
  · have hrun : t.rtakeWhile (· == c) = List.replicate (Text.endRun c t) c := by
      apply List.eq_replicate_of_mem
      intro d hd
      simpa using List.mem_rtakeWhile_imp hd
    rw [← hrun, List.rdropWhile_append_rtakeWhile]
  · intro hlast
    obtain ⟨init, hinit⟩ := List.getLast?_eq_some_iff.1 hlast
    have hnot := List.rdropWhile_last_not (· == c) t (by simp [hinit])
    simp [hinit] at hnot

/-- The part behind the equal characters at the front of a text. -/
theorem Text.exists_headRun (c : Char) (t : Text) :
    ∃ n back, t = List.replicate n c ++ back ∧ back.head? ≠ some c := by
  refine ⟨(t.takeWhile (· == c)).length, t.dropWhile (· == c), ?_, ?_⟩
  · have hrun : t.takeWhile (· == c) = List.replicate (t.takeWhile (· == c)).length c := by
      apply List.eq_replicate_of_mem
      intro d hd
      simpa using List.mem_takeWhile_imp hd
    rw [← hrun, List.takeWhile_append_dropWhile]
  · intro hhead
    have hnot := List.head?_dropWhile_not (· == c) t
    simp [hhead] at hnot

theorem Text.byteSize_replicate (hc : c.utf8Size = 1) (n : Nat) :
    Text.byteSize (List.replicate n c) = n := by
  induction n with
  | zero => rfl
  | succ n ih =>
      rw [List.replicate_succ, Text.byteSize_cons, ih, hc, Nat.add_comm]

theorem eq_of_isDoubled (h : isDoubled c = true) : c = '|' ∨ c = '&' := by
  simpa [isDoubled] using h

theorem utf8Size_of_isDoubled (h : isDoubled c = true) : c.utf8Size = 1 := by
  rcases eq_of_isDoubled h with rfl | rfl <;> decide

end Runs

section Places

variable {c d : Char} {before : Option Char} {t front word behind rest : Text}

theorem mem_operatorSpellings_iff : word ∈ operatorSpellings ↔
    (∃ c, isDoubled c = true ∧ word = [c, c]) ∨ word = ['!', '='] ∨ word = ['='] ∨
      word = ['+'] := by
  constructor
  · intro h
    simp only [operatorSpellings, List.mem_cons, List.not_mem_nil, or_false] at h
    rcases h with rfl | rfl | rfl | rfl | rfl
    · exact .inl ⟨'|', by decide, rfl⟩
    · exact .inl ⟨'&', by decide, rfl⟩
    · exact .inr (.inl rfl)
    · exact .inr (.inr (.inl rfl))
    · exact .inr (.inr (.inr rfl))
  · rintro (⟨c, hc, rfl⟩ | rfl | rfl | rfl)
    · rcases eq_of_isDoubled hc with rfl | rfl <;> decide
    · decide
    · decide
    · decide

theorem OperatorAt.mem_operatorSpellings (h : OperatorAt front word behind) :
    word ∈ operatorSpellings := by
  rw [mem_operatorSpellings_iff]
  cases h with
  | doubled hc _ => exact .inl ⟨_, hc, rfl⟩
  | notEqual => exact .inr (.inl rfl)
  | equal _ => exact .inr (.inr (.inl rfl))
  | plus => exact .inr (.inr (.inr rfl))

theorem operatorHere_eq_none (h : operatorHere before t = none) (hword : word ∈ operatorSpellings) :
    t ≠ word ++ rest := by
  intro ht
  rw [operatorHere, Option.map_eq_none_iff, List.find?_eq_none] at h
  exact h word hword (by rw [Text.after?_eq_some_iff.2 ht]; rfl)

/-- Whatever operator the text begins with where the scan has come to, it stands there. -/
theorem OperatorReady.operatorAt (h : OperatorReady front (word ++ rest))
    (hword : word ∈ operatorSpellings) : OperatorAt front word rest := by
  rcases mem_operatorSpellings_iff.1 hword with ⟨c, hc, rfl⟩ | rfl | rfl | rfl
  · exact .doubled hc (h.even c hc rfl)
  · exact .notEqual
  · exact .equal (h.not_after rfl)
  · exact .plus

/-- Where no operator begins the scan can go on behind the next character. -/
theorem OperatorReady.of_miss (hmiss : operatorHere before (c :: t) = none) (front : Text) :
    OperatorReady (front ++ [c]) t where
  even d hd hhead := by
    obtain ⟨rest, rfl⟩ := List.head?_eq_some_iff.1 hhead
    rw [Text.endRun_concat, if_neg]
    rintro rfl
    exact operatorHere_eq_none hmiss (mem_operatorSpellings_iff.2 (.inl ⟨c, hd, rfl⟩)) rfl
  not_after hhead hlast := by
    obtain ⟨rest, rfl⟩ := List.head?_eq_some_iff.1 hhead
    rw [List.getLast?_concat, Option.some.injEq] at hlast
    subst hlast
    exact operatorHere_eq_none hmiss (mem_operatorSpellings_iff.2 (.inr (.inl rfl))) rfl

theorem OperatorReady.of_getLast (hc : isDoubled c = false) (hne : c ≠ '!') (front t : Text) :
    OperatorReady (front ++ [c]) t where
  even d hd _ := by
    rw [Text.endRun_concat, if_neg]
    rintro rfl
    rw [hc] at hd
    exact absurd hd (by decide)
  not_after _ := by
    rw [List.getLast?_concat]
    simpa using hne

/-- Behind an operator the scan can go on. -/
theorem OperatorAt.ready (h : OperatorAt front word behind) (t : Text) :
    OperatorReady (front ++ word) t := by
  cases h with
  | @doubled _ c hc heven =>
      refine ⟨fun d hd _ => ?_, fun _ => ?_⟩
      · rw [List.append_cons, Text.endRun_concat, Text.endRun_concat]
        split
        · rename_i heq
          rw [← heq]
          omega
        · rfl
      · rw [List.append_cons, List.getLast?_concat]
        rcases eq_of_isDoubled hc with rfl | rfl <;> decide
  | notEqual =>
      rw [List.append_cons]
      exact .of_getLast (by decide) (by decide) _ _
  | equal _ => exact .of_getLast (by decide) (by decide) _ _
  | plus => exact .of_getLast (by decide) (by decide) _ _

/-- Behind the first one of a pair there is an odd number of its character. -/
theorem not_operatorAt_of_doubled (hc : isDoubled c = true) (heven : Text.endRun c front % 2 = 0)
    (hrest : c :: rest = word ++ behind) : ¬ OperatorAt (front ++ [c]) word behind := by
  have hne : c ≠ '!' ∧ c ≠ '=' ∧ c ≠ '+' := by
    rcases eq_of_isDoubled hc with rfl | rfl <;> decide
  intro h
  cases h with
  | doubled hd hodd =>
      rw [List.cons_append, List.cons.injEq] at hrest
      rw [← hrest.1, Text.endRun_concat, if_pos rfl] at hodd
      omega
  | notEqual => exact hne.1 (List.cons.inj hrest).1
  | equal _ => exact hne.2.1 (List.cons.inj hrest).1
  | plus => exact hne.2.2 (List.cons.inj hrest).1

/-- An equals sign behind an exclamation mark is no operator of its own. -/
theorem not_operatorAt_of_notEqual (hrest : '=' :: rest = word ++ behind) :
    ¬ OperatorAt (front ++ ['!']) word behind := by
  intro h
  cases h with
  | doubled hd _ =>
      rw [List.cons_append, List.cons.injEq] at hrest
      rw [← hrest.1] at hd
      exact absurd hd (by decide)
  | notEqual => exact absurd (List.cons.inj hrest).1 (by decide)
  | equal hne => exact hne List.getLast?_concat
  | plus => exact absurd (List.cons.inj hrest).1 (by decide)

/-- No other operator begins within one. -/
theorem OperatorAt.beginsIn_iff (h : OperatorAt front word rest) {skipped other : Text} :
    Placement.BeginsIn OperatorAt front word rest skipped other ↔ skipped = [] ∧ other = word := by
  constructor
  · rintro ⟨after, behind, hsplit, hafter, hrest, hother⟩
    cases skipped with
    | nil =>
        have hapart : ∀ v ∈ operatorSpellings, ∀ w ∈ operatorSpellings, v <+: w → v = w := by
          decide
        rw [List.nil_append] at hsplit
        subst hsplit
        refine ⟨rfl, ?_⟩
        rcases List.prefix_or_prefix_of_prefix ⟨rest, rfl⟩ ⟨behind, hrest.symm⟩ with hle | hle
        · exact (hapart _ h.mem_operatorSpellings _ hother.mem_operatorSpellings hle).symm
        · exact hapart _ hother.mem_operatorSpellings _ h.mem_operatorSpellings hle
    | cons x skipped =>
        rw [List.cons_append] at hsplit
        cases h with
        | doubled hc heven =>
            obtain ⟨rfl, hsecond⟩ := List.cons.inj hsplit
            obtain ⟨rfl, rfl⟩ := eq_nil_of_singleton_eq_append hsecond hafter
            exact absurd hother (not_operatorAt_of_doubled hc heven hrest)
        | notEqual =>
            obtain ⟨rfl, hsecond⟩ := List.cons.inj hsplit
            obtain ⟨rfl, rfl⟩ := eq_nil_of_singleton_eq_append hsecond hafter
            exact absurd hother (not_operatorAt_of_notEqual hrest)
        | equal _ =>
            obtain ⟨-, hnil⟩ := List.cons.inj hsplit
            exact absurd (List.append_eq_nil_iff.1 hnil.symm).2 hafter
        | plus =>
            obtain ⟨-, hnil⟩ := List.cons.inj hsplit
            exact absurd (List.append_eq_nil_iff.1 hnil.symm).2 hafter
  · rintro ⟨rfl, rfl⟩
    exact ⟨other, rest, rfl, ne_nil_of_mem_operatorSpellings h.mem_operatorSpellings, rfl,
      by rwa [List.append_nil]⟩

/-- The search for operators finds those that stand in the text. -/
theorem operatorHere_marks : operatorHere.Marks .operator OperatorAt OperatorReady where
  sound := operatorHere_sound
  word_ne_nil h := ne_nil_of_mem_operatorSpellings h.mem_operatorSpellings
  miss := by
    intro front c t _ hmiss
    exact ⟨.of_miss hmiss front,
      fun word behind ht h => operatorHere_eq_none hmiss h.mem_operatorSpellings ht⟩
  hit := by
    intro front pieces rest hready hmatch
    obtain ⟨word, hword, -, -, rfl⟩ := @operatorHere_eq_some front.getLast? _ _ hmatch
    have hmatched : matchedText [⟨.operator, word⟩] = word := by simp [matchedText]
    rw [hmatched] at hready
    have hplace := hready.operatorAt hword
    exact ⟨word, rfl, hplace.ready rest, fun skipped other => hplace.beginsIn_iff⟩

theorem operatorReady_nil (t : Text) : OperatorReady [] t :=
  ⟨fun _ _ _ => rfl, fun _ => by simp⟩

end Places

section Fragments

variable {f : Fragment} {s : Span}

/-- A pair of a run stands behind the pairs before it. -/
theorem Text.RunAt.operatorAt {t front back : Text} {c : Char} {n k : Nat}
    (h : t.RunAt front c n back) (hc : isDoubled c = true) (hk : k < n / 2) :
    ∃ behind, t = (front ++ List.replicate (2 * k) c) ++ ([c, c] ++ behind) ∧
      OperatorAt (front ++ List.replicate (2 * k) c) [c, c] behind := by
  obtain ⟨rest, rfl⟩ : ∃ rest, n = 2 * k + (2 + rest) := ⟨n - (2 * k + 2), by omega⟩
  refine ⟨List.replicate rest c ++ back, ?_, .doubled hc ?_⟩
  · have hpair : List.replicate 2 c = [c, c] := rfl
    rw [h.text_eq, List.replicate_add, List.replicate_add, hpair]
    simp only [List.append_assoc]
  · rw [endRun_append_replicate h.front_ne]
    exact Nat.mul_mod_right 2 k

/-- A pair with an even number of its character before it is one of a run. -/
theorem Text.exists_runAt {front : Text} {c : Char} (heven : Text.endRun c front % 2 = 0)
    (behind : Text) :
    ∃ start n k back, Text.RunAt (front ++ ([c, c] ++ behind)) start c n back ∧ k < n / 2 ∧
      front = start ++ List.replicate (2 * k) c := by
  obtain ⟨start, hfront, hstart⟩ := Text.exists_endRun c front
  obtain ⟨rest, back, hbehind, hback⟩ := Text.exists_headRun c behind
  have hk : Text.endRun c front = 2 * (Text.endRun c front / 2) := by omega
  generalize Text.endRun c front / 2 = k at hk
  rw [hk] at hfront
  refine ⟨start, 2 * k + (2 + rest), k, back, ⟨?_, hstart, hback⟩, by omega, hfront⟩
  have hpair : List.replicate 2 c = [c, c] := rfl
  rw [List.replicate_add, List.replicate_add, hpair, hfront, hbehind]
  simp only [List.append_assoc]

/-- The operators of a fragment by the places at which they stand. -/
theorem Fragment.hasOperator_iff : f.HasOperator s ↔
    ∃ front word behind, f.text = front ++ (word ++ behind) ∧ OperatorAt front word behind ∧
      s = ⟨.operator, f.start + Text.byteSize front, Text.byteSize word⟩ := by
  have hsize : ∀ {c : Char}, isDoubled c = true → Text.byteSize [c, c] = 2 := by
    intro c hc
    exact Text.byteSize_replicate (utf8Size_of_isDoubled hc) 2
  constructor
  · intro h
    cases h with
    | @doubled front back c n k hc hrun hk =>
        obtain ⟨behind, htext, hplace⟩ := hrun.operatorAt hc hk
        refine ⟨_, [c, c], behind, htext, hplace, ?_⟩
        rw [hsize hc, Text.byteSize_append, Text.byteSize_replicate (utf8Size_of_isDoubled hc),
          ← Nat.add_assoc]
    | @notEqual front back htext => exact ⟨front, ['!', '='], back, htext, .notEqual, rfl⟩
    | @equal front back htext hne => exact ⟨front, ['='], back, htext, .equal hne, rfl⟩
    | @plus front back htext => exact ⟨front, ['+'], back, htext, .plus, rfl⟩
  · rintro ⟨front, word, behind, htext, hplace, rfl⟩
    cases hplace with
    | @doubled _ c hc heven =>
        obtain ⟨start, n, k, back, hrun, hk, rfl⟩ := Text.exists_runAt heven behind
        rw [← htext] at hrun
        rw [hsize hc, Text.byteSize_append, Text.byteSize_replicate (utf8Size_of_isDoubled hc),
          ← Nat.add_assoc]
        exact .doubled hc hrun hk
    | notEqual => exact .notEqual htext
    | equal hne => exact .equal htext hne
    | plus => exact .plus htext

theorem Fragment.mem_filter_classify_operator (hopens : f.opensWithComment = false) :
    s ∈ f.classify.filter (·.category == .operator) ↔ f.HasOperator s := by
  rw [mem_filter_classify_iff (k := .operator) hopens operatorHere_marks rfl
    (operatorReady_nil f.text), hasOperator_iff]

/-- An equals sign or a plus sign is within an operator. -/
theorem Fragment.exists_operator_of_sign {front back : Text} {c : Char}
    (htext : f.text = front ++ c :: back) (hc : c = '=' ∨ c = '+') :
    ∃ s, f.HasOperator s ∧ s.covers (f.start + Text.byteSize front) = true := by
  rcases hc with rfl | rfl
  · by_cases hlast : front.getLast? = some '!'
    · obtain ⟨init, rfl⟩ := List.getLast?_eq_some_iff.1 hlast
      have hsize : Text.byteSize (init ++ ['!']) = Text.byteSize init + 1 :=
        Text.byteSize_append init ['!']
      refine ⟨_, .notEqual (htext.trans (List.append_assoc init _ _)), ?_⟩
      rw [Span.covers_iff, Span.stop]
      dsimp only
      omega
    · refine ⟨_, .equal htext hlast, ?_⟩
      rw [Span.covers_iff]
      exact ⟨le_rfl, Nat.lt_succ_self _⟩
  · refine ⟨_, .plus htext, ?_⟩
    rw [Span.covers_iff]
    exact ⟨le_rfl, Nat.lt_succ_self _⟩

end Fragments

/-- The operators of a fragment that no comment opens.  In the order of the text there are, for
every run of bars or ampersands, the pairs of it from the left; for every equals sign one, which
takes in an exclamation mark right before it; and for every plus sign one.  So every equals sign
and every plus sign is in just one of them. -/
theorem Fragment.classify_operators {f : Fragment} (hopens : f.opensWithComment = false) :
    let operators := f.classify.filter (·.category == .operator)
    (operators.Pairwise fun a b => a.start < b.start ∧ a.stop ≤ b.start) ∧
      (∀ s, s ∈ operators ↔ f.HasOperator s) ∧
      ∀ front c back, f.text = front ++ c :: back → c = '=' ∨ c = '+' →
        ∃ s, operators.filter (·.covers (f.start + Text.byteSize front)) = [s] := by
  intro operators
  have hordered : operators.Pairwise fun a b => a.start < b.start ∧ a.stop ≤ b.start :=
    (f.filter_classify_cutFrom .operator).pairwise_start_lt
  refine ⟨hordered, fun s => mem_filter_classify_operator hopens, ?_⟩
  intro front c back htext hc
  obtain ⟨s, hs, hcovers⟩ := exists_operator_of_sign htext hc
  exact ⟨s, filter_covers_eq_singleton (hordered.imp And.right)
    ((mem_filter_classify_operator hopens).2 hs) hcovers⟩

/-- Five bars, three ampersands, and an equals sign behind the second of two exclamation marks. -/
theorem Fragment.classify_operators_odd_runs :
    let f : Fragment := ⟨"é|||||=&&&+!!==x".toList, 3⟩
    let operators := f.classify.filter (·.category == .operator)
    f.opensWithComment = false ∧
      operators = [⟨.operator, 5, 2⟩, ⟨.operator, 7, 2⟩, ⟨.operator, 10, 1⟩, ⟨.operator, 11, 2⟩,
        ⟨.operator, 14, 1⟩, ⟨.operator, 16, 2⟩, ⟨.operator, 18, 1⟩] ∧
      f.HasOperator ⟨.operator, 7, 2⟩ ∧ ¬ f.HasOperator ⟨.operator, 8, 2⟩ ∧
      ∃ s, operators.filter (·.covers 17) = [s] := by
  intro f operators
  have hopens : f.opensWithComment = false := by decide
  obtain ⟨-, hmem, honce⟩ := classify_operators hopens
  refine ⟨hopens, by decide, (hmem _).1 (by decide), ?_, ?_⟩
  · rw [← hmem]
    decide
  · exact honce "é|||||=&&&+!!".toList '=' "=x".toList rfl (.inl rfl)

end BmakeHighlight
