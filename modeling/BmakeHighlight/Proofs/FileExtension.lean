/-
The content type of a path, by its bytes.  The name of the file is the last part of the
path that is not idle, unless it goes up, and the extension is what stands behind the
last dot of the name, when there is something in front of that dot.  Three bytes decide
whether it is one of a bmake file; that the extension is shown as a text on the way does
not count.
-/
import Mathlib.Data.List.Basic
import Mathlib.Data.List.TakeWhile
import BmakeHighlight.Loading
import BmakeHighlight.Proofs.LossyText

namespace BmakeHighlight

/-- The byte between two parts of a path. -/
abbrev slashByte : UInt8 := 0x2F

/-- The byte in front of an extension. -/
abbrev dotByte : UInt8 := 0x2E

/-- The byte of the small letter for that of an ASCII capital, and any other byte itself. -/
def smallByte (b : UInt8) : UInt8 :=
  if 0x41 ≤ b ∧ b ≤ 0x5A then b + 0x20 else b

/-- The bytes of `mke` and of `mki`. -/
def makeExtensions : List PathPart :=
  [[0x6D, 0x6B, 0x65], [0x6D, 0x6B, 0x69]]

namespace Path

/-- Does the path end in this name, with nothing but idle parts behind it? -/
def Names (p : Path) (name : PathPart) : Prop :=
  ∃ front idle, p.bytes = List.intercalate [slashByte] (front ++ name :: idle) ∧
    (∀ part ∈ front ++ name :: idle, slashByte ∉ part) ∧
    (∀ part ∈ idle, part = [] ∨ part = PathPart.here) ∧
    name ≠ [] ∧ name ≠ PathPart.here ∧ name ≠ PathPart.up

/-- Does the path name a file with one of the extensions of bmake files, in letters of either
case? -/
def HasMakeExtension (p : Path) : Prop :=
  ∃ name stem extension, p.Names name ∧ name = stem ++ dotByte :: extension ∧ stem ≠ [] ∧
    extension.map smallByte ∈ makeExtensions

/-- Does the path name no file, or one without a dot behind the first byte of its name? -/
def LacksExtension (p : Path) : Prop :=
  (∀ name, ¬ p.Names name) ∨ ∃ name, p.Names name ∧ dotByte ∉ name.tail

end Path

section Lists

variable {α : Type} {q : α → Bool} {a : α} {front back : List α}

/-- The members of a list that are not as they should be, if any, have a last one. -/
theorem forall_or_exists_last (q : α → Bool) (l : List α) :
    (∀ a ∈ l, q a = true) ∨
      ∃ front a back, l = front ++ a :: back ∧ q a = false ∧ ∀ b ∈ back, q b = true := by
  induction l with
  | nil => exact .inl (by simp)
  | cons a l ih =>
      rcases ih with hall | ⟨front, b, back, rfl, hb, hback⟩
      · by_cases ha : q a = true
        · exact .inl (List.forall_mem_cons.2 ⟨ha, hall⟩)
        · exact .inr ⟨[], a, l, rfl, Bool.not_eq_true _ ▸ ha, hall⟩
      · exact .inr ⟨a :: front, b, back, rfl, hb, hback⟩

theorem dropWhile_reverse_append_cons (ha : q a = false) (hback : ∀ b ∈ back, q b = true) :
    (front ++ a :: back).reverse.dropWhile q = a :: front.reverse := by
  have hreverse : ∀ b ∈ back.reverse, q b = true := fun b hb => hback b (List.mem_reverse.1 hb)
  rw [List.reverse_append, List.reverse_cons, List.append_assoc,
    List.dropWhile_append_of_pos hreverse, List.singleton_append, List.dropWhile_cons, ha]
  rfl

theorem takeWhile_reverse_append_cons (ha : q a = false) (hback : ∀ b ∈ back, q b = true) :
    (front ++ a :: back).reverse.takeWhile q = back.reverse := by
  have hreverse : ∀ b ∈ back.reverse, q b = true := fun b hb => hback b (List.mem_reverse.1 hb)
  rw [List.reverse_append, List.reverse_cons, List.append_assoc,
    List.takeWhile_append_of_pos hreverse, List.singleton_append, List.takeWhile_cons, ha]
  simp

end Lists

namespace PathPart

variable {part name stem extension : PathPart}

theorem isIdle_iff : part.isIdle = true ↔ part = [] ∨ part = here := by
  rw [isIdle, Bool.or_eq_true, beq_iff_eq, beq_iff_eq]

theorem isIdle_eq_false_iff : part.isIdle = false ↔ part ≠ [] ∧ part ≠ here := by
  rw [← Bool.not_eq_true, isIdle_iff, not_or]

/-- A name without a dot, or with its last dot. -/
theorem dot_cases (name : PathPart) :
    dotByte ∉ name ∨ ∃ stem extension, name = stem ++ dotByte :: extension ∧
      dotByte ∉ extension := by
  rcases forall_or_exists_last (· != dotByte) name with hall | ⟨stem, b, extension, hname, hb, h⟩
  · left
    intro hdot
    simpa using hall dotByte hdot
  · right
    have hdot : b = dotByte := by simpa using hb
    refine ⟨stem, extension, hdot ▸ hname, ?_⟩
    intro hmem
    simpa using h dotByte hmem

theorem extension?_of_not_mem (h : dotByte ∉ name) : name.extension? = none := by
  have hall : ∀ b ∈ name.reverse, (b != dotByte) = true := by
    intro b hb
    rw [bne_iff_ne]
    exact ne_of_mem_of_not_mem (List.mem_reverse.1 hb) h
  rw [extension?, List.dropWhile_eq_nil_iff.2 hall]

/-- What stands behind the last dot, if there is something in front of it. -/
theorem extension?_append_dot (h : dotByte ∉ extension) (stem : PathPart) :
    extension? (stem ++ dotByte :: extension) = if stem = [] then none else some extension := by
  have hback : ∀ b ∈ extension, (b != dotByte) = true := by
    intro b hb
    rw [bne_iff_ne]
    exact ne_of_mem_of_not_mem hb h
  rw [extension?, dropWhile_reverse_append_cons (by decide) hback,
    takeWhile_reverse_append_cons (by decide) hback, List.reverse_reverse]
  cases hstem : stem.reverse with
  | nil =>
      rw [List.reverse_eq_nil_iff.1 hstem]
      rfl
  | cons b front =>
      have hne : stem ≠ [] := by
        rintro rfl
        cases hstem
      rw [if_neg hne]

theorem extension?_eq_some_iff :
    name.extension? = some extension ↔
      ∃ stem, name = stem ++ dotByte :: extension ∧ stem ≠ [] ∧ dotByte ∉ extension := by
  constructor
  · intro h
    rcases dot_cases name with hdot | ⟨stem, behind, rfl, hbehind⟩
    · rw [extension?_of_not_mem hdot] at h
      cases h
    · rw [extension?_append_dot hbehind] at h
      split at h
      · cases h
      · rename_i hstem
        obtain rfl := Option.some.inj h
        exact ⟨stem, rfl, hstem, hbehind⟩
  · rintro ⟨stem, rfl, hstem, hextension⟩
    rw [extension?_append_dot hextension, if_neg hstem]

/-- A name has an extension when it has a dot behind its first byte. -/
theorem extension?_eq_none_iff : name.extension? = none ↔ dotByte ∉ name.tail := by
  rcases dot_cases name with hdot | ⟨stem, extension, rfl, hextension⟩
  · exact iff_of_true (extension?_of_not_mem hdot) fun hmem => hdot (List.mem_of_mem_tail hmem)
  · rw [extension?_append_dot hextension]
    cases stem with
    | nil => exact iff_of_true rfl hextension
    | cons b stem => simp

end PathPart

namespace Path

variable {p : Path} {name extension : PathPart} {front idle : List PathPart}

theorem fileName?_of_forall (h : ∀ part ∈ p.parts, part.isIdle = true) : p.fileName? = none := by
  have hall : ∀ part ∈ p.parts.reverse, part.isIdle = true :=
    fun part hpart => h part (List.mem_reverse.1 hpart)
  rw [fileName?, List.dropWhile_eq_nil_iff.2 hall]

theorem fileName?_of_parts (hparts : p.parts = front ++ name :: idle)
    (hname : name.isIdle = false) (hidle : ∀ part ∈ idle, part.isIdle = true) :
    p.fileName? = if name = PathPart.up then none else some name := by
  rw [fileName?, hparts, dropWhile_reverse_append_cons hname hidle]

/-- The name at the end of a path is found. -/
theorem fileName?_eq_some_iff : p.fileName? = some name ↔ p.Names name := by
  constructor
  · intro h
    rcases forall_or_exists_last PathPart.isIdle p.parts with
      hall | ⟨front, last, idle, hparts, hlast, hidle⟩
    · rw [fileName?_of_forall hall] at h
      cases h
    · rw [fileName?_of_parts hparts hlast hidle] at h
      split at h
      · cases h
      · rename_i hup
        obtain rfl := Option.some.inj h
        have hbytes : List.intercalate [slashByte] p.parts = p.bytes :=
          intercalate_fieldsOf slashByte p.bytes
        have hslash : ∀ part ∈ p.parts, slashByte ∉ part :=
          fun part hpart hmem => (mem_of_mem_fieldsOf hpart hmem).2 rfl
        obtain ⟨hne, hhere⟩ := PathPart.isIdle_eq_false_iff.1 hlast
        rw [hparts] at hbytes hslash
        exact ⟨front, idle, hbytes.symm, hslash,
          fun part hpart => PathPart.isIdle_iff.1 (hidle part hpart), hne, hhere, hup⟩
  · rintro ⟨front, idle, hbytes, hslash, hidle, hne, hhere, hup⟩
    have hparts : p.parts = front ++ name :: idle := by
      rw [parts, hbytes, fieldsOf_intercalate (by simp) hslash]
    rw [fileName?_of_parts hparts (PathPart.isIdle_eq_false_iff.2 ⟨hne, hhere⟩)
      fun part hpart => PathPart.isIdle_iff.2 (hidle part hpart), if_neg hup]

/-- A path ends in one name at most. -/
theorem Names.unique {name' : PathPart} (h : p.Names name) (h' : p.Names name') : name = name' := by
  rw [← fileName?_eq_some_iff] at h h'
  exact Option.some.inj (h.symm.trans h')

theorem extension?_eq_some_iff :
    p.extension? = some extension ↔
      ∃ name stem, p.Names name ∧ name = stem ++ dotByte :: extension ∧ stem ≠ [] ∧
        dotByte ∉ extension := by
  simp only [extension?, Option.bind_eq_some_iff, fileName?_eq_some_iff,
    PathPart.extension?_eq_some_iff, exists_and_left]

theorem extension?_eq_none_iff : p.extension? = none ↔ p.LacksExtension := by
  cases hname : p.fileName? with
  | none =>
      have hnone : ∀ name, ¬ p.Names name := by
        intro name h
        rw [fileName?_eq_some_iff.2 h] at hname
        cases hname
      exact iff_of_true (by rw [extension?, hname]; rfl) (.inl hnone)
  | some name =>
      have hnames := fileName?_eq_some_iff.1 hname
      rw [extension?, hname, Option.bind_some, PathPart.extension?_eq_none_iff]
      constructor
      · exact fun h => .inr ⟨name, hnames, h⟩
      · rintro (hnone | ⟨name', hnames', h⟩)
        · exact absurd hnames (hnone name)
        · rwa [hnames.unique hnames']

end Path

section Recognition

variable {b : UInt8} {extension word : PathPart}

theorem lt_smallByte_iff : smallByte b < 0x80 ↔ b < 0x80 := by
  rw [smallByte]
  split
  · rename_i hb
    simp only [UInt8.lt_iff_toNat_lt, UInt8.le_iff_toNat_le, UInt8.toNat_add,
      UInt8.reduceToNat] at hb ⊢
    omega
  · rfl

/-- Small letters are the same for characters and for the bytes of ASCII. -/
theorem toLower_byteChar (hb : b < 0x80) : (byteChar b).toLower = byteChar (smallByte b) := by
  have hall : ∀ n < 0x80, (byteChar (UInt8.ofNat n)).toLower =
      byteChar (smallByte (UInt8.ofNat n)) := by decide +kernel
  have hn := hall b.toNat (UInt8.lt_iff_toNat_lt.1 hb)
  rwa [UInt8.ofNat_toNat] at hn

theorem toLower_of_le {c : Char} (hc : 0x80 ≤ c.toNat) : c.toLower = c := by
  refine dif_neg ?_
  rintro ⟨-, hle⟩
  have hle' : c.toNat ≤ 'Z'.toNat := UInt32.le_iff_toNat_le.1 hle
  exact absurd (Nat.le_trans hc hle') (by decide)

theorem lt_of_mem_makeExtensions (hword : word ∈ makeExtensions) : ∀ b ∈ word, b < 0x80 := by
  have hall : ∀ word ∈ makeExtensions, ∀ b ∈ word, b < 0x80 := by decide +kernel
  exact hall word hword

theorem isBmakeExtension_iff_map {t : Text} :
    isBmakeExtension t = true ↔ t.map Char.toLower ∈ makeExtensions.map (List.map byteChar) := by
  have hknown : makeExtensions.map (List.map byteChar) =
      fileExtensions.map fun known => (known.drop 1).map Char.toLower := by decide
  rw [isBmakeExtension, List.any_eq_true, hknown, List.mem_map]
  simp only [beq_iff_eq]

/-- An extension is recognized by its text exactly when it is by its bytes. -/
theorem isBmakeExtension_iff :
    isBmakeExtension (decodeUtf8Lossy extension) = true ↔
      extension.map smallByte ∈ makeExtensions := by
  rw [isBmakeExtension_iff_map]
  by_cases hascii : ∀ b ∈ extension, b < 0x80
  · have hlower : (extension.map byteChar).map Char.toLower =
        (extension.map smallByte).map byteChar := by
      rw [List.map_map, List.map_map]
      exact List.map_congr_left fun b hb => toLower_byteChar (hascii b hb)
    rw [decodeUtf8Lossy_of_lt hascii, hlower]
    exact List.mem_map_of_injective (List.map_injective_iff.2 byteChar_injective)
  · have hbeyond : ∃ b ∈ extension, 0x80 ≤ b := by simpa using hascii
    refine iff_of_false ?_ ?_
    · intro hmem
      obtain ⟨c, hc, hle⟩ := exists_mem_decodeUtf8Lossy hbeyond
      obtain ⟨word, hword, heq⟩ := List.mem_map.1 hmem
      have hc' : c ∈ word.map byteChar := by
        rw [heq, ← toLower_of_le hle]
        exact List.mem_map_of_mem hc
      obtain ⟨b, hb, rfl⟩ := List.mem_map.1 hc'
      have hlt := lt_of_mem_makeExtensions hword b hb
      rw [toNat_byteChar] at hle
      exact absurd hlt (UInt8.not_lt.2 hle)
    · intro hmem
      obtain ⟨b, hb, hle⟩ := hbeyond
      have hlt := lt_of_mem_makeExtensions hmem (smallByte b) (List.mem_map_of_mem hb)
      exact absurd (lt_smallByte_iff.1 hlt) (UInt8.not_lt.2 hle)

/-- There is no dot in an extension of bmake files. -/
theorem dot_not_mem_of_makeExtension (h : extension.map smallByte ∈ makeExtensions) :
    dotByte ∉ extension := by
  intro hdot
  have hmem : dotByte ∈ extension.map smallByte := List.mem_map_of_mem hdot
  have hall : ∀ word ∈ makeExtensions, dotByte ∉ word := by decide
  exact hall _ h hmem

end Recognition

namespace Path

variable {p : Path} {extension : PathPart}

theorem hasMakeExtension_iff :
    p.HasMakeExtension ↔
      ∃ extension, p.extension? = some extension ∧ extension.map smallByte ∈ makeExtensions := by
  constructor
  · rintro ⟨name, stem, extension, hname, hcut, hstem, hmake⟩
    exact ⟨extension, extension?_eq_some_iff.2
      ⟨name, stem, hname, hcut, hstem, dot_not_mem_of_makeExtension hmake⟩, hmake⟩
  · rintro ⟨extension, h, hmake⟩
    obtain ⟨name, stem, hname, hcut, hstem, -⟩ := extension?_eq_some_iff.1 h
    exact ⟨name, stem, extension, hname, hcut, hstem, hmake⟩

theorem contentType_of_none (h : p.extension? = none) :
    p.contentType = .error (.ofCause (.missingExtension p.display)) := by
  rw [contentType, h]

theorem contentType_of_make (h : p.extension? = some extension)
    (hmake : extension.map smallByte ∈ makeExtensions) : p.contentType = .ok makeContentType := by
  rw [contentType, h]
  exact if_pos (isBmakeExtension_iff.2 hmake)

theorem contentType_of_other (h : p.extension? = some extension)
    (hother : extension.map smallByte ∉ makeExtensions) :
    p.contentType =
      .error (.ofCause (.unsupportedExtension (decodeUtf8Lossy extension))) := by
  rw [contentType, h]
  exact if_neg (mt isBmakeExtension_iff.1 hother)

theorem contentType_eq_ok_iff : p.contentType = .ok makeContentType ↔ p.HasMakeExtension := by
  rw [hasMakeExtension_iff]
  constructor
  · intro h
    cases hext : p.extension? with
    | none =>
        rw [contentType_of_none hext] at h
        cases h
    | some extension =>
        refine ⟨extension, rfl, ?_⟩
        by_contra hother
        rw [contentType_of_other hext hother] at h
        cases h
  · rintro ⟨extension, hext, hmake⟩
    exact contentType_of_make hext hmake

theorem contentType_eq_missing_iff :
    p.contentType = .error (.ofCause (.missingExtension p.display)) ↔ p.LacksExtension := by
  rw [← extension?_eq_none_iff]
  refine ⟨?_, contentType_of_none⟩
  intro h
  cases hext : p.extension? with
  | none => rfl
  | some extension =>
      by_cases hmake : extension.map smallByte ∈ makeExtensions
      · rw [contentType_of_make hext hmake] at h
        cases h
      · rw [contentType_of_other hext hmake] at h
        cases h

theorem exists_contentType_eq_unsupported (hmake : ¬ p.HasMakeExtension)
    (hlacks : ¬ p.LacksExtension) :
    ∃ name stem extension, p.Names name ∧ name = stem ++ dotByte :: extension ∧
      dotByte ∉ extension ∧
      p.contentType = .error (.ofCause (.unsupportedExtension (decodeUtf8Lossy extension))) := by
  rw [← extension?_eq_none_iff] at hlacks
  rw [hasMakeExtension_iff] at hmake
  obtain ⟨extension, hext⟩ := Option.ne_none_iff_exists'.1 hlacks
  obtain ⟨name, stem, hname, hcut, -, hdot⟩ := extension?_eq_some_iff.1 hext
  exact ⟨name, stem, extension, hname, hcut, hdot,
    contentType_of_other hext fun h => hmake ⟨extension, hext, h⟩⟩

/-- The content type of a path is that of bmake files exactly when the one name at the end of it
has one of their extensions, byte for byte up to the case of the letters.  The extension is missing
exactly when there is no such name or no dot behind its first byte; any other one is reported as
it is shown.  A document at a path that is rejected is not loaded, whatever there is to read. -/
theorem contentType_by_bytes (p : Path) :
    (∀ name name', p.Names name → p.Names name' → name = name') ∧
      (p.contentType = .ok makeContentType ↔ p.HasMakeExtension) ∧
      (p.contentType = .error (.ofCause (.missingExtension p.display)) ↔ p.LacksExtension) ∧
      (¬ p.HasMakeExtension → ¬ p.LacksExtension →
        ∃ name stem extension, p.Names name ∧ name = stem ++ dotByte :: extension ∧
          dotByte ∉ extension ∧ p.contentType =
            .error (.ofCause (.unsupportedExtension (decodeUtf8Lossy extension)))) ∧
      ∀ e, p.contentType = .error e → ∀ read, Document.load read p = .error e := by
  refine ⟨fun _ _ => Names.unique, contentType_eq_ok_iff, contentType_eq_missing_iff,
    exists_contentType_eq_unsupported, ?_⟩
  intro e he read
  rw [Document.load, he]

/-- An extension that is no UTF-8 and ends like one of bmake files, in a directory with such an
extension, and one in mixed case behind two dots, both with idle parts at the end of the path. -/
theorem contentType_by_bytes_invalid_utf8 :
    let p : Path := ⟨encodeUtf8 "x.mke/.a.".toList ++ [0xC3] ++ encodeUtf8 "mke/./".toList⟩
    let last : PathPart := encodeUtf8 ".a.".toList ++ [0xC3] ++ encodeUtf8 "mke".toList
    let e : Error := .ofCause (.unsupportedExtension ['\uFFFD', 'm', 'k', 'e'])
    p.Names last ∧ (∀ name, p.Names name → name = last) ∧
      ¬ p.HasMakeExtension ∧ ¬ p.LacksExtension ∧ p.contentType = .error e ∧
      (∃ name stem extension, p.Names name ∧ name = stem ++ dotByte :: extension ∧
        dotByte ∉ extension ∧ p.contentType =
          .error (.ofCause (.unsupportedExtension (decodeUtf8Lossy extension)))) ∧
      (∀ read, Document.load read p = .error e) ∧
      (Path.ofText "..mKi/.//".toList).HasMakeExtension := by
  intro p last e
  have hcontent : p.contentType = .error e := by decide
  have hlast : p.Names last := fileName?_eq_some_iff.1 (by decide)
  obtain ⟨hunique, hmake, hlacks, hother, hload⟩ := p.contentType_by_bytes
  have hmake' : ¬ p.HasMakeExtension := by
    rw [← hmake, hcontent]
    decide
  have hlacks' : ¬ p.LacksExtension := by
    rw [← hlacks, hcontent]
    decide
  refine ⟨hlast, fun name hname => hunique name last hname hlast, hmake', hlacks', hcontent,
    hother hmake' hlacks', hload e hcontent, ?_⟩
  exact (contentType_by_bytes (Path.ofText "..mKi/.//".toList)).2.1.1 (by decide)

end Path

end BmakeHighlight
