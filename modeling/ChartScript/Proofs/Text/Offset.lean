/-
Byte offsets.

To a reader that goes by offsets a text is a row of bytes.  It can look at each of them, but it can
cut the text only at a boundary: between two characters, or at an end.  `from?`, `upTo?` and
`slice?` are the cuts of such a reader.  They fail at every other offset, and so does `minus?`, the
difference of two offsets, below zero.

A byte below 128 is a character, and all bytes of any other character are above.  So a class of
characters below 128 is a class of bytes as well, and where a reader goes on from a boundary over
the bytes of a class, it goes over the characters of the class and comes to a boundary.
-/
import ChartScript.Proofs.Text.Rows
import ChartScript.Text.Lines

namespace ChartScript.Text

variable {cs front back : List Char}

theorem byteLength_pos (h : cs ≠ []) : 0 < byteLength cs := by
  obtain ⟨c, rest, rfl⟩ := List.exists_cons_of_ne_nil h
  have hpos : 0 < c.utf8Size := c.utf8Size_pos
  rw [byteLength_cons]
  omega

/-- Of two beginnings of one text, the shorter one begins the longer one. -/
theorem exists_append_of_byteLength_le {xs ys zs ws : List Char} (h : xs ++ ys = zs ++ ws)
    (hle : byteLength xs ≤ byteLength zs) : ∃ mid, zs = xs ++ mid ∧ ys = mid ++ ws := by
  rcases List.append_eq_append_iff.mp h with hshort | ⟨more, rfl, rfl⟩
  · exact hshort
  · cases more with
    | nil => exact ⟨[], by simp, by simp⟩
    | cons c more =>
        have hpos := byteLength_pos (List.cons_ne_nil c more)
        rw [byteLength_append] at hle
        omega

/-! ### Boundaries -/

/-- An offset between two characters of a text, or at one of its ends. -/
def IsBoundary (cs : List Char) (offset : Nat) : Prop :=
  (⟨offset⟩ : String.Pos.Raw).IsValid (String.ofList cs)

theorem utf8ByteSize_ofList (cs : List Char) : (String.ofList cs).utf8ByteSize = byteLength cs := by
  induction cs with
  | nil => rfl
  | cons c cs ih =>
      rw [← List.singleton_append, String.ofList_append, String.utf8ByteSize_append, ih,
        byteLength_append, byteLength_cons, byteLength_nil, Nat.add_zero,
        ← String.singleton_eq_ofList, String.utf8ByteSize_singleton]

/-- **At a boundary, and only there, a text has a part before and a part behind.** -/
theorem isBoundary_iff {offset : Nat} :
    IsBoundary cs offset ↔ ∃ front back, cs = front ++ back ∧ byteLength front = offset := by
  rw [IsBoundary, String.Pos.Raw.isValid_ofList]
  constructor
  · rintro ⟨i, hi⟩
    rw [utf8ByteSize_ofList] at hi
    exact ⟨cs.take i, cs.drop i, (List.take_append_drop i cs).symm, hi.symm⟩
  · rintro ⟨front, back, rfl, rfl⟩
    refine ⟨front.length, ?_⟩
    rw [List.take_left, utf8ByteSize_ofList]

theorem IsBoundary.le {offset : Nat} (h : IsBoundary cs offset) : offset ≤ byteLength cs := by
  obtain ⟨front, back, rfl, rfl⟩ := isBoundary_iff.mp h
  rw [byteLength_append]
  exact Nat.le_add_right _ _

/-! ### Cuts -/

/-- The text from an offset on. -/
def from? (cs : List Char) (start : Nat) : Option (List Char) :=
  (splitAtByte start cs).map Prod.snd

/-- The text up to an offset. -/
def upTo? (cs : List Char) (stop : Nat) : Option (List Char) :=
  (splitAtByte stop cs).map Prod.fst

/-- The text between two offsets. -/
def slice? (cs : List Char) (start stop : Nat) : Option (List Char) :=
  (upTo? cs stop).bind fun front => from? front start

/-- The difference of two offsets, if it is not below zero. -/
def minus? (m n : Nat) : Option Nat :=
  if n ≤ m then some (m - n) else none

@[simp] theorem splitAtByte_append (front back : List Char) :
    splitAtByte (byteLength front) (front ++ back) = some (front, back) := by
  induction front with
  | nil => cases back <;> simp [splitAtByte]
  | cons c front ih =>
      have hpos : 0 < c.utf8Size := c.utf8Size_pos
      obtain ⟨n, hn⟩ : ∃ n, c.utf8Size + byteLength front = n + 1 :=
        ⟨c.utf8Size + byteLength front - 1, by omega⟩
      have hrest : n + 1 - c.utf8Size = byteLength front := by omega
      rw [byteLength_cons, List.cons_append, hn, splitAtByte, if_pos (by omega), hrest, ih]
      rfl

theorem splitAtByte_eq_some_iff {offset : Nat} :
    splitAtByte offset cs = some (front, back) ↔
      cs = front ++ back ∧ byteLength front = offset := by
  constructor
  · intro h
    obtain ⟨happend, hlength⟩ := splitAtByte_eq_some h
    exact ⟨happend.symm, hlength⟩
  · rintro ⟨rfl, rfl⟩
    exact splitAtByte_append front back

theorem isSome_splitAtByte_iff {offset : Nat} :
    (splitAtByte offset cs).isSome = true ↔ IsBoundary cs offset := by
  simp only [isBoundary_iff, Option.isSome_iff_exists, Prod.exists, splitAtByte_eq_some_iff]

/-- **A text can be cut at its boundaries and nowhere else.** -/
theorem isSome_from?_iff {start : Nat} : (from? cs start).isSome = true ↔ IsBoundary cs start := by
  rw [from?, Option.isSome_map, isSome_splitAtByte_iff]

theorem isSome_upTo?_iff {stop : Nat} : (upTo? cs stop).isSome = true ↔ IsBoundary cs stop := by
  rw [upTo?, Option.isSome_map, isSome_splitAtByte_iff]

@[simp] theorem from?_append (front back : List Char) :
    from? (front ++ back) (byteLength front) = some back := by
  simp [from?]

@[simp] theorem upTo?_append (front back : List Char) :
    upTo? (front ++ back) (byteLength front) = some front := by
  simp [upTo?]

/-- The text between two boundaries. -/
theorem slice?_append (front mid back : List Char) :
    slice? (front ++ (mid ++ back)) (byteLength front) (byteLength front + byteLength mid) =
      some mid := by
  rw [slice?, ← byteLength_append, ← List.append_assoc, upTo?_append]
  exact from?_append front mid

/-- **Between two offsets there is a text exactly if both are boundaries**, in this order. -/
theorem isSome_slice?_iff {start stop : Nat} :
    (slice? cs start stop).isSome = true ↔
      IsBoundary cs start ∧ IsBoundary cs stop ∧ start ≤ stop := by
  constructor
  · intro h
    obtain ⟨mid, hmid⟩ := Option.isSome_iff_exists.mp h
    obtain ⟨whole, hwhole, hstart⟩ := Option.bind_eq_some_iff.mp hmid
    have hstop : IsBoundary cs stop := isSome_upTo?_iff.mp (Option.isSome_of_eq_some hwhole)
    have hinner : IsBoundary whole start := isSome_from?_iff.mp (Option.isSome_of_eq_some hstart)
    obtain ⟨⟨_, back⟩, hcut, rfl⟩ := Option.map_eq_some_iff.mp hwhole
    obtain ⟨hcs, rfl⟩ := splitAtByte_eq_some_iff.mp hcut
    obtain ⟨front, more, happend, hfront⟩ := isBoundary_iff.mp hinner
    refine ⟨isBoundary_iff.mpr ⟨front, more ++ back, ?_, hfront⟩, hstop, hinner.le⟩
    rw [hcs, ← List.append_assoc, ← happend]
  · rintro ⟨hstart, hstop, hle⟩
    obtain ⟨front, back, hfront, rfl⟩ := isBoundary_iff.mp hstart
    obtain ⟨whole, rest, rfl, rfl⟩ := isBoundary_iff.mp hstop
    obtain ⟨mid, rfl, -⟩ := exists_append_of_byteLength_le hfront.symm hle
    rw [slice?, upTo?_append, Option.bind_some, from?_append]
    rfl

theorem minus?_of_le {m n : Nat} (h : n ≤ m) : minus? m n = some (m - n) :=
  if_pos h

theorem minus?_eq (m n : Nat) : minus? (m + n) n = some m := by
  rw [minus?_of_le (Nat.le_add_left n m), Nat.add_sub_cancel]

/-! ### The ends of a text -/

/-- The text behind a word, if it starts with the word. -/
def behindAt? (word cs : List Char) : Option (Option (List Char)) :=
  if word.isPrefixOf cs then (from? cs (byteLength word)).map some else some none

/-- The text from the offset of its first character that is not blank. -/
def trimStartAt? (cs : List Char) : Option (List Char) :=
  from? cs (byteLength (cs.takeWhile isBlank))

/-- The text up to the offset behind its last character that is not blank. -/
def trimEndAt? (cs : List Char) : Option (List Char) :=
  let blanks := (cs.reverse.takeWhile isBlank).reverse
  (minus? (byteLength cs) (byteLength blanks)).bind (upTo? cs)

/-- The text between these offsets. -/
def trimAt? (cs : List Char) : Option (List Char) :=
  (trimStartAt? cs).bind trimEndAt?

@[simp] theorem behindAt?_eq (word cs : List Char) :
    behindAt? word cs = some (word.isPrefixOf? cs) := by
  rw [behindAt?]
  cases hrest : word.isPrefixOf? cs with
  | none =>
      have hnot : ¬word.isPrefixOf cs = true := by
        intro hword
        obtain ⟨rest, happend⟩ := List.isPrefixOf_iff_prefix.mp hword
        rw [List.isPrefixOf?_eq_some_iff_append_eq.mpr happend] at hrest
        cases hrest
      rw [if_neg hnot]
  | some rest =>
      obtain rfl := List.isPrefixOf?_eq_some_iff_append_eq.mp hrest
      simp

@[simp] theorem trimStartAt?_eq (cs : List Char) : trimStartAt? cs = some (trimStart cs) := by
  have hcut := from?_append (cs.takeWhile isBlank) (cs.dropWhile isBlank)
  rwa [List.takeWhile_append_dropWhile] at hcut

@[simp] theorem trimEndAt?_eq (cs : List Char) : trimEndAt? cs = some (trimEnd cs) := by
  have happend : trimEnd cs ++ (cs.reverse.takeWhile isBlank).reverse = cs := by
    rw [trimEnd, ← List.reverse_append, List.takeWhile_append_dropWhile, List.reverse_reverse]
  have hcut := upTo?_append (trimEnd cs) (cs.reverse.takeWhile isBlank).reverse
  have hlength := byteLength_append (trimEnd cs) (cs.reverse.takeWhile isBlank).reverse
  rw [happend] at hcut hlength
  simp only [trimEndAt?]
  rw [hlength, minus?_eq, Option.bind_some, hcut]

@[simp] theorem trimAt?_eq (cs : List Char) : trimAt? cs = some (trim cs) := by
  rw [trimAt?, trimStartAt?_eq, Option.bind_some, trimEndAt?_eq, trim]

/-! ### Bytes -/

/-- The bytes of a text. -/
def bytes (cs : List Char) : List UInt8 :=
  cs.flatMap String.utf8EncodeChar

theorem bytes_append (front back : List Char) :
    bytes (front ++ back) = bytes front ++ bytes back :=
  List.flatMap_append

theorem length_bytes (cs : List Char) : (bytes cs).length = byteLength cs := by
  induction cs with
  | nil => rfl
  | cons c cs ih =>
      rw [bytes, List.flatMap_cons, List.length_append, String.length_utf8EncodeChar,
        byteLength_cons, ← ih]
      rfl

/-- The character that the first byte of a character would be by itself. -/
def lead (c : Char) : Char :=
  Char.ofUInt8 ((String.utf8EncodeChar c).headD 0)

/-- The byte at a boundary is the first one of the character there. -/
theorem getElem?_bytes (front cs : List Char) :
    (bytes (front ++ cs))[byteLength front]?.map Char.ofUInt8 = cs.head?.map lead := by
  rw [bytes_append, List.getElem?_append_right (Nat.le_of_eq (length_bytes front)),
    length_bytes, Nat.sub_self]
  cases cs with
  | nil => rfl
  | cons c cs =>
      have hpos : 0 < (String.utf8EncodeChar c).length := by
        rw [String.length_utf8EncodeChar]
        exact c.utf8Size_pos
      obtain ⟨b, more, hbytes⟩ := List.exists_cons_of_length_pos hpos
      simp [bytes, lead, hbytes]

/-- A class of characters that take one byte. -/
def IsAscii (p : Char → Bool) : Prop :=
  ∀ c, p c = true → c.toNat < 128

theorem utf8Size_eq_one_of_lt {c : Char} (h : c.toNat < 128) : c.utf8Size = 1 :=
  Char.utf8Size_eq_one_iff.mpr (UInt32.le_iff_toNat_le.mpr (Nat.le_of_lt_succ h))

theorem IsAscii.utf8Size_eq_one {p : Char → Bool} (hp : IsAscii p) {c : Char} (h : p c = true) :
    c.utf8Size = 1 :=
  utf8Size_eq_one_of_lt (hp c h)

theorem lead_of_lt {c : Char} (h : c.toNat < 128) : lead c = c := by
  have hle : c.val.toNat ≤ 0x7f := Nat.le_of_lt_succ h
  have hbyte : String.utf8EncodeChar c = [UInt8.ofNat c.val.toNat] := by
    rw [String.utf8EncodeChar, if_pos hle]
  rw [lead, hbyte]
  apply Char.ext
  apply UInt32.toNat_inj.mp
  show (UInt8.ofNat c.val.toNat).toUInt32.toNat = c.val.toNat
  rw [UInt8.toNat_toUInt32, UInt8.toNat_ofNat']
  omega

theorem le_toNat_lead {c : Char} (h : 128 ≤ c.toNat) : 128 ≤ (lead c).toNat := by
  have hlarge : ¬c.val.toNat ≤ 0x7f := Nat.not_le.mpr h
  have htoNat : ∀ b : UInt8, (Char.ofUInt8 b).toNat = b.toNat := fun b => UInt8.toNat_toUInt32 b
  rw [lead, htoNat, String.utf8EncodeChar, if_neg hlarge]
  -- However many bytes follow, the first one is at least 0xc0.
  split
  · simp only [List.headD_cons, UInt8.toNat_ofNat']
    omega
  split
  · simp only [List.headD_cons, UInt8.toNat_ofNat']
    omega
  · simp only [List.headD_cons, UInt8.toNat_ofNat']
    omega

/-- The first byte of a character is in a class exactly if the character is. -/
theorem IsAscii.apply_lead {p : Char → Bool} (hp : IsAscii p) (c : Char) : p (lead c) = p c := by
  by_cases h : c.toNat < 128
  · rw [lead_of_lt h]
  · have hnot : p c = false := Bool.eq_false_iff.mpr fun hc => h (hp c hc)
    have hlead := le_toNat_lead (Nat.le_of_not_lt h)
    have hnotLead : p (lead c) = false :=
      Bool.eq_false_iff.mpr fun hc => Nat.not_lt.mpr hlead (hp _ hc)
    rw [hnot, hnotLead]

/-- A byte of a class stands at an offset. -/
def standsAt (p : Char → Bool) (bs : List UInt8) (offset : Nat) : Bool :=
  bs[offset]?.any fun b => p (Char.ofUInt8 b)

theorem lt_length_of_standsAt {p : Char → Bool} {bs : List UInt8} {offset : Nat}
    (h : standsAt p bs offset = true) : offset < bs.length := by
  refine Nat.lt_of_not_le fun hle => ?_
  rw [standsAt, List.getElem?_eq_none hle] at h
  cases h

theorem standsAt_append {p : Char → Bool} (hp : IsAscii p) (front cs : List Char) :
    standsAt p (bytes (front ++ cs)) (byteLength front) = cs.head?.any p := by
  have hbyte := getElem?_bytes front cs
  have hany : standsAt p (bytes (front ++ cs)) (byteLength front) =
      ((bytes (front ++ cs))[byteLength front]?.map Char.ofUInt8).any p := by
    rw [standsAt, Option.any_map]
  rw [hany, hbyte]
  cases cs with
  | nil => rfl
  | cons c cs => exact hp.apply_lead c

/-- The offset behind the bytes of a class that follow one another from an offset on. -/
def skip (p : Char → Bool) (bs : List UInt8) (offset : Nat) : Nat :=
  if h : standsAt p bs offset = true then skip p bs (offset + 1) else offset
termination_by bs.length - offset
decreasing_by
  have hlt := lt_length_of_standsAt h
  omega

/-- **The bytes of a class that follow a boundary are the characters of the class that do.** -/
theorem skip_append {p : Char → Bool} (hp : IsAscii p) (front cs : List Char) :
    skip p (bytes (front ++ cs)) (byteLength front) =
      byteLength front + byteLength (cs.takeWhile p) := by
  induction cs generalizing front with
  | nil =>
      have hnone : ¬standsAt p (bytes (front ++ [])) (byteLength front) = true := by
        rw [standsAt_append hp]
        exact Bool.false_ne_true
      rw [skip, dif_neg hnone]
      rfl
  | cons c cs ih =>
      rw [skip]
      by_cases hc : p c = true
      · have hone : c.utf8Size = 1 := hp.utf8Size_eq_one hc
        have hrest := ih (front ++ [c])
        rw [byteLength_append, byteLength_cons, byteLength_nil, Nat.add_zero, hone,
          List.append_assoc, List.singleton_append] at hrest
        rw [dif_pos (by rw [standsAt_append hp]; exact hc), hrest, List.takeWhile_cons_of_pos hc,
          byteLength_cons, hone, Nat.add_assoc]
      · rw [dif_neg (by rw [standsAt_append hp]; exact hc), List.takeWhile_cons_of_neg hc]
        rfl

theorem le_skip (p : Char → Bool) (bs : List UInt8) (offset : Nat) : offset ≤ skip p bs offset := by
  fun_induction skip p bs offset with
  | case1 offset h ih => exact Nat.le_of_succ_le ih
  | case2 offset h => exact Nat.le_refl offset

theorem lt_skip {p : Char → Bool} {bs : List UInt8} {offset : Nat}
    (h : standsAt p bs offset = true) : offset < skip p bs offset := by
  rw [skip, dif_pos h]
  exact le_skip p bs (offset + 1)

end ChartScript.Text
