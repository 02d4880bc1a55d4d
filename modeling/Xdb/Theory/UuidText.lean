import Xdb.Theory.Dedup

/-!
# The Text of a UUID

Worker-supplied dedup ids arrive as text, and `publishToLocalQueue` reads them with
`uuid.ParseUUID`. The row `InsertLocalQueue` writes holds the id as the text `UUID.String`
gives back, and the table's key is over that text. The model compares ids where the database
compares texts, and this module shows that the two comparisons agree.

`parse` accepts only a UUID's worth of digits: thirty-two hex digit values, whichever of the
four layouts the text used (`parse_accepts_only_hex_digits`). Writing those digits out with
`encodeHex` and parsing the text gives the same id back (`encodeHex_parse_round_trip`).
Two parsed ids therefore have the same column text exactly when they are equal.

The parser reads hex digits and the `urn:uuid:` prefix in either case, byte by byte, and
compares dashes exactly. Two byte strings that differ only in ASCII letter case therefore
parse alike (`parse_congr`). Lower-casing a text does exactly that to its UTF-8 bytes
(`utf8EncodeChar_toLower`). One consequence is a publish that carries a UUID dedup id twice
on one queue, once in each case: the second copy repeats the first, so the transaction fails
and rolls back (`recased_dedup_id_rolls_back`).

## Main definitions

* `Uuid.WellFormed`: Thirty-two hex digit values.
* `Uuid.SameUpToCase`: Byte strings equal up to ASCII letter case.

## Theorems

* `parse_accepts_only_hex_digits`: What `parse` accepts is well formed.
* `encodeHex_parse_round_trip`: `parse` reads `encodeHex` back.
* `parse_congr`: Byte strings equal up to case parse alike.
* `parse_eq_of_toLower`: Texts equal up to case parse alike.
* `recased_dedup_id_rolls_back`: A recased UUID dedup id fails the publish.
-/

namespace Xdb

namespace Uuid

/-! ### Bytes -/

theorem byte_eq_of_toNat_eq {a b : UInt8} (h : a.toNat = b.toNat) : a = b :=
  UInt8.eq_of_val_eq (Fin.ext h)

theorem lowerByte_toNat (b : UInt8) : (lowerByte b).toNat =
    if 65 ≤ b.toNat ∧ b.toNat ≤ 90 then b.toNat + 32 else b.toNat := by
  unfold lowerByte
  by_cases h : 65 ≤ b.toNat ∧ b.toNat ≤ 90
  · rw [if_pos (show 65 ≤ b ∧ b ≤ 90 from h), if_pos h]
    show (b.toNat + 32) % 256 = _
    omega
  · rw [if_neg (show ¬(65 ≤ b ∧ b ≤ 90) from h), if_neg h]

theorem lowerByte_of_not_upper {b : UInt8} (h : ¬(65 ≤ b.toNat ∧ b.toNat ≤ 90)) :
    lowerByte b = b :=
  if_neg h

theorem lowerByte_eq_dash (b : UInt8) : lowerByte b = 45 ↔ b = 45 := by
  refine ⟨fun h => byte_eq_of_toNat_eq ?_, fun h => by subst h; rfl⟩
  have h' := congrArg UInt8.toNat h
  rw [lowerByte_toNat] at h'
  change _ = 45 at h'
  change b.toNat = 45
  split_ifs at h' <;> omega

theorem hexValue_eq (b : UInt8) : hexValue b =
    if 48 ≤ b.toNat ∧ b.toNat ≤ 57 then some (b.toNat - 48)
    else if 97 ≤ b.toNat ∧ b.toNat ≤ 102 then some (b.toNat - 87)
    else if 65 ≤ b.toNat ∧ b.toNat ≤ 70 then some (b.toNat - 55) else none :=
  rfl

theorem hexValue_lt {b : UInt8} {n : Nat} (h : hexValue b = some n) : n < 16 := by
  rw [hexValue_eq] at h
  split_ifs at h <;> cases h <;> omega

/-- The digit table reads upper and lower case alike. -/
theorem hexValue_lowerByte (b : UInt8) : hexValue (lowerByte b) = hexValue b := by
  by_cases hu : 65 ≤ b.toNat ∧ b.toNat ≤ 90
  · -- `A`-`F` read as `a`-`f` do, and no other upper-case letter is a digit either way
    have hl : (lowerByte b).toNat = b.toNat + 32 := by rw [lowerByte_toNat, if_pos hu]
    have hd : ¬(48 ≤ b.toNat + 32 ∧ b.toNat + 32 ≤ 57) ∧ ¬(48 ≤ b.toNat ∧ b.toNat ≤ 57) ∧
        ¬(97 ≤ b.toNat ∧ b.toNat ≤ 102) ∧ ¬(65 ≤ b.toNat + 32 ∧ b.toNat + 32 ≤ 70) := by
      omega
    have hf : (97 ≤ b.toNat + 32 ∧ b.toNat + 32 ≤ 102) ↔ (65 ≤ b.toNat ∧ b.toNat ≤ 70) := by
      omega
    rw [hexValue_eq, hexValue_eq, hl]
    simp only [hd, hf, if_false, show b.toNat + 32 - 87 = b.toNat - 55 by omega]
  · rw [lowerByte_of_not_upper hu]

/-! ### UTF-8 -/

theorem utf8EncodeChar_of_ascii {c : Char} (h : c.toNat < 128) :
    String.utf8EncodeChar c = [c.val.toUInt8] := by
  rw [String.utf8EncodeChar, if_pos (show c.val ≤ 127 from Nat.le_of_lt_succ h)]

theorem le_toNat_or {x k : UInt8} (hk : k.toNat.testBit 7 = true) :
    128 ≤ (x ||| k).toNat := by
  show 2 ^ 7 ≤ (x.toBitVec ||| k.toBitVec).toNat
  rw [BitVec.toNat_or]
  exact Nat.testBit_implies_ge (by
    rw [Nat.testBit_or, show k.toBitVec.toNat.testBit 7 = true from hk, Bool.or_true])

/-- Every byte of a character past ASCII has its high bit set, so no case folding of
    bytes touches it. -/
theorem utf8EncodeChar_high {c : Char} (h : 128 ≤ c.toNat) :
    ∀ b ∈ String.utf8EncodeChar c, 128 ≤ b.toNat := by
  rw [String.utf8EncodeChar, if_neg (show ¬c.val ≤ 127 from fun h' => absurd h' (by
    show ¬c.toNat ≤ 127; omega))]
  split_ifs <;> simp only [List.forall_mem_cons, List.not_mem_nil, false_imp_iff, imp_true_iff,
    and_true] <;> (repeat' apply And.intro) <;> exact le_toNat_or (by decide)

theorem toNat_ofNat_of_lt {n : Nat} (h : n < 55296) : (Char.ofNat n).toNat = n := by
  rw [Char.ofNat, dif_pos (Or.inl h)]
  rfl

/-- Lower-casing a character lower-cases its UTF-8 bytes. -/
theorem utf8EncodeChar_toLower (c : Char) :
    (String.utf8EncodeChar c).map lowerByte = String.utf8EncodeChar c.toLower := by
  have hb : c.val.toUInt8.toNat = c.toNat % 256 := rfl
  by_cases hu : 65 ≤ c.toNat ∧ c.toNat ≤ 90
  · have hl : c.toLower.toNat = c.toNat + 32 := by
      rw [Char.toLower, if_pos hu]
      exact toNat_ofNat_of_lt (by omega)
    have hb' : c.toLower.val.toUInt8.toNat = c.toLower.toNat % 256 := rfl
    rw [utf8EncodeChar_of_ascii (by omega), utf8EncodeChar_of_ascii (by omega),
      List.map_singleton, List.singleton_inj]
    apply byte_eq_of_toNat_eq
    rw [lowerByte_toNat, hb, hb', hl, if_pos (by omega)]
    omega
  · rw [show c.toLower = c from if_neg hu]
    by_cases ha : c.toNat < 128
    · rw [utf8EncodeChar_of_ascii ha, List.map_singleton,
        lowerByte_of_not_upper (by rw [hb]; omega)]
    · exact (List.map_congr_left fun b hb => lowerByte_of_not_upper (by
        have := utf8EncodeChar_high (by omega) b hb; omega)).trans (List.map_id _)

theorem utf8_map_lowerByte (cs : List Char) :
    (cs.flatMap String.utf8EncodeChar).map lowerByte =
      (cs.map Char.toLower).flatMap String.utf8EncodeChar := by
  rw [List.map_flatMap, List.flatMap_map]
  exact congrArg cs.flatMap (funext utf8EncodeChar_toLower)

/-! ### What the parser accepts -/

/-- Thirty-two hex digit values: the digits of a UUID. -/
def WellFormed (d : List Nat) : Prop :=
  d.length = 32 ∧ ∀ x ∈ d, x < 16

instance : DecidablePred WellFormed := fun _ => inferInstanceAs (Decidable (_ ∧ _))

theorem hexDigits_eq_some : ∀ {bs : List UInt8} {d : List Nat}, hexDigits bs = some d →
    d.length = bs.length ∧ ∀ x ∈ d, x < 16
  | [], _, h => by
    cases h
    exact ⟨rfl, fun _ h => nomatch h⟩
  | b :: bs, d, h => by
    simp only [hexDigits, List.mapM_cons, bind, Option.bind_eq_some, pure,
      Option.some.injEq] at h
    obtain ⟨x, hx, xs, hxs, rfl⟩ := h
    obtain ⟨hl, hd⟩ := hexDigits_eq_some hxs
    exact ⟨by simp [hl], List.forall_mem_cons.2 ⟨hexValue_lt hx, hd⟩⟩

theorem parseDashed_wellFormed {bs : List UInt8} {d : List Nat} (h : parseDashed bs = some d)
    (hl : 36 ≤ bs.length) : WellFormed d := by
  unfold parseDashed at h
  split_ifs at h
  obtain ⟨hd, hx⟩ := hexDigits_eq_some h
  refine ⟨?_, hx⟩
  simp (disch := first | omega | (rw [List.length_drop]; omega)) only [hd,
    List.length_append, List.length_take_of_le]

/-- Whatever layout the text used, what `parse` accepts is thirty-two hex digit values. -/
theorem parse_accepts_only_hex_digits {s : String} {u : Uuid} (h : parse s = some u) :
    ∃ d, u = .parsed d ∧ WellFormed d := by
  simp only [parse] at h
  obtain ⟨d, hd, rfl⟩ := Option.map_eq_some'.1 h
  refine ⟨d, rfl, ?_⟩
  generalize s.data.flatMap String.utf8EncodeChar = bs at hd
  split_ifs at hd with h36 h45 hurn h38 h32
  · exact parseDashed_wellFormed hd h36.ge
  · exact parseDashed_wellFormed hd (by simp only [List.length_drop]; omega)
  · exact parseDashed_wellFormed hd (by simp only [List.length_drop]; omega)
  · exact ⟨(hexDigits_eq_some hd).1.trans h32, (hexDigits_eq_some hd).2⟩

theorem bare_digits_parse_well_formed :
    parse "0123456789ABCDEF0123456789abcdef" = some (.parsed (List.range 16 ++ List.range 16)) ∧
      ∃ d, parsed (List.range 16 ++ List.range 16) = .parsed d ∧ WellFormed d := by
  have h : parse "0123456789ABCDEF0123456789abcdef" =
      some (.parsed (List.range 16 ++ List.range 16)) := by decide
  exact ⟨h, parse_accepts_only_hex_digits h⟩

/-! ### Reading `encodeHex` back -/

theorem hexChar_toNat {n : Nat} (h : n < 16) :
    (hexChar n).toNat = if n < 10 then 48 + n else 87 + n :=
  toNat_ofNat_of_lt (by split <;> omega)

theorem hexValue_hexChar {n : Nat} (h : n < 16) :
    hexValue (hexChar n).val.toUInt8 = some n := by
  have hb : (hexChar n).val.toUInt8.toNat = (hexChar n).toNat % 256 := rfl
  rw [hexValue_eq, hb, hexChar_toNat h]
  by_cases hn : n < 10
  · rw [if_pos hn, if_pos (show 48 ≤ (48 + n) % 256 ∧ (48 + n) % 256 ≤ 57 by omega)]
    congr 1
    omega
  · rw [if_neg hn, if_neg (show ¬(48 ≤ (87 + n) % 256 ∧ (87 + n) % 256 ≤ 57) by omega),
      if_pos (show 97 ≤ (87 + n) % 256 ∧ (87 + n) % 256 ≤ 102 by omega)]
    congr 1
    omega

theorem utf8_hexChars : ∀ {d : List Nat}, (∀ x ∈ d, x < 16) →
    (d.map hexChar).flatMap String.utf8EncodeChar = d.map fun n => (hexChar n).val.toUInt8
  | [], _ => rfl
  | n :: d, h => by
    rw [List.forall_mem_cons] at h
    rw [List.map_cons, List.flatMap_cons, utf8EncodeChar_of_ascii (by
      rw [hexChar_toNat h.1]; split <;> omega), utf8_hexChars h.2]
    rfl

theorem hexDigits_hexChars : ∀ {d : List Nat}, (∀ x ∈ d, x < 16) →
    hexDigits (d.map fun n => (hexChar n).val.toUInt8) = some d
  | [], _ => rfl
  | n :: d, h => by
    rw [List.forall_mem_cons] at h
    have ih : (d.map fun n => (hexChar n).val.toUInt8).mapM hexValue = some d :=
      hexDigits_hexChars h.2
    simp only [hexDigits, List.map_cons, List.mapM_cons, hexValue_hexChar h.1, ih]
    rfl

/-- `parseDashed` with each later position read from the group before it. -/
theorem parseDashed_eq_groups (bs : List UInt8) : parseDashed bs =
    if bs.get? 8 = some 45 ∧ (bs.drop 9).get? 4 = some 45 ∧
        ((bs.drop 9).drop 5).get? 4 = some 45 ∧
        (((bs.drop 9).drop 5).drop 5).get? 4 = some 45 then
      hexDigits (bs.take 8 ++ (bs.drop 9).take 4 ++ ((bs.drop 9).drop 5).take 4 ++
        (((bs.drop 9).drop 5).drop 5).take 4 ++ ((((bs.drop 9).drop 5).drop 5).drop 5).take 12)
    else none := by
  simp only [parseDashed, List.drop_drop, List.get?_eq_getElem?, List.getElem?_drop]

theorem get?_group {P Q : List UInt8} {n : Nat} (h : P.length = n) :
    (P ++ 45 :: Q).get? n = some 45 := by
  subst h
  rw [List.get?_eq_getElem?, List.getElem?_append_right (le_refl _), Nat.sub_self,
    List.getElem?_cons_zero]

theorem drop_group {P Q : List UInt8} {x : UInt8} {n : Nat} (h : P.length + 1 = n) :
    (P ++ x :: Q).drop n = Q := by
  subst h
  simp

/-- The dashed layout, group by group: the dashes are where `parseDashed` looks, and the
    digits it reads are the groups'. -/
theorem parseDashed_groups {A B C D E : List UInt8} (hA : A.length = 8) (hB : B.length = 4)
    (hC : C.length = 4) (hD : D.length = 4) (hE : E.length = 12) :
    parseDashed (A ++ 45 :: (B ++ 45 :: (C ++ 45 :: (D ++ 45 :: E)))) =
      hexDigits (A ++ B ++ C ++ D ++ E) := by
  rw [parseDashed_eq_groups, drop_group (by rw [hA]), drop_group (by rw [hB]),
    drop_group (by rw [hC]), drop_group (by rw [hD]), get?_group hA, get?_group hB,
    get?_group hC, get?_group hD, List.take_left' hA, List.take_left' hB, List.take_left' hC,
    List.take_left' hD, List.take_of_length_le hE.le]
  exact if_pos ⟨rfl, rfl, rfl, rfl⟩

theorem groups_append (d : List Nat) :
    d.take 8 ++ (d.drop 8).take 4 ++ (d.drop 12).take 4 ++ (d.drop 16).take 4 ++ d.drop 20 =
      d := by
  conv_rhs => rw [← List.take_append_drop 8 d, ← List.take_append_drop 4 (d.drop 8),
    ← List.take_append_drop 4 ((d.drop 8).drop 4),
    ← List.take_append_drop 4 (((d.drop 8).drop 4).drop 4)]
  simp only [List.drop_drop, List.append_assoc]

theorem utf8EncodeChar_dash : String.utf8EncodeChar '-' = [45] :=
  rfl

theorem encodeHex_bytes {d : List Nat} (h : ∀ x ∈ d, x < 16) :
    (encodeHex d).data.flatMap String.utf8EncodeChar =
      (d.take 8).map (fun n => (hexChar n).val.toUInt8) ++
        45 :: (((d.drop 8).take 4).map (fun n => (hexChar n).val.toUInt8) ++
        45 :: (((d.drop 12).take 4).map (fun n => (hexChar n).val.toUInt8) ++
        45 :: (((d.drop 16).take 4).map (fun n => (hexChar n).val.toUInt8) ++
        45 :: (d.drop 20).map (fun n => (hexChar n).val.toUInt8)))) := by
  have ht : ∀ k j, ∀ x ∈ (d.drop k).take j, x < 16 := fun k j x hx =>
    h x (List.mem_of_mem_drop (List.mem_of_mem_take hx))
  simp only [encodeHex, List.flatMap_append, List.flatMap_cons,
    utf8_hexChars fun x hx => h x (List.mem_of_mem_take hx), utf8_hexChars (ht 8 4),
    utf8_hexChars (ht 12 4), utf8_hexChars (ht 16 4),
    utf8_hexChars fun x hx => h x (List.mem_of_mem_drop hx), utf8EncodeChar_dash,
    List.singleton_append, List.append_assoc, List.cons_append, List.nil_append]

/-- `parse` reads the text `encodeHex` writes back as the digits it was written from. -/
theorem encodeHex_parse_round_trip {d : List Nat} (hd : WellFormed d) :
    parse (encodeHex d) = some (.parsed d) := by
  obtain ⟨hA, hB, hC, hD, hE⟩ : (d.take 8).length = 8 ∧ ((d.drop 8).take 4).length = 4 ∧
      ((d.drop 12).take 4).length = 4 ∧ ((d.drop 16).take 4).length = 4 ∧
      (d.drop 20).length = 12 := by
    simp only [List.length_take, List.length_drop, hd.1]
    decide
  simp only [parse]
  rw [encodeHex_bytes hd.2, if_pos (by simp only [List.length_append, List.length_cons,
      List.length_map, hA, hB, hC, hD, hE]),
    parseDashed_groups (by rw [List.length_map, hA]) (by rw [List.length_map, hB])
      (by rw [List.length_map, hC]) (by rw [List.length_map, hD]) (by rw [List.length_map, hE]),
    ← List.map_append, ← List.map_append, ← List.map_append, ← List.map_append, groups_append,
    hexDigits_hexChars hd.2]
  rfl

theorem digit_run_text_reads_back :
    WellFormed (List.range 16 ++ List.range 16) ∧
      parse (encodeHex (List.range 16 ++ List.range 16)) =
        some (.parsed (List.range 16 ++ List.range 16)) :=
  ⟨by decide, encodeHex_parse_round_trip (by decide)⟩

/-! ### Letter case -/

/-- Two byte strings equal up to ASCII letter case. -/
def SameUpToCase (bs bt : List UInt8) : Prop :=
  bs.map lowerByte = bt.map lowerByte

namespace SameUpToCase

variable {bs bt : List UInt8}

theorem take (h : SameUpToCase bs bt) (n : Nat) : SameUpToCase (bs.take n) (bt.take n) := by
  unfold SameUpToCase at *
  rw [List.map_take, h, ← List.map_take]

theorem drop (h : SameUpToCase bs bt) (n : Nat) : SameUpToCase (bs.drop n) (bt.drop n) := by
  unfold SameUpToCase at *
  rw [List.map_drop, h, ← List.map_drop]

theorem append {cs ct : List UInt8} (h₁ : SameUpToCase bs bt) (h₂ : SameUpToCase cs ct) :
    SameUpToCase (bs ++ cs) (bt ++ ct) := by
  unfold SameUpToCase at *
  rw [List.map_append, List.map_append, h₁, h₂]

theorem length_eq (h : SameUpToCase bs bt) : bs.length = bt.length := by
  simpa using congrArg List.length h

/-- A dash is a dash in both or in neither. -/
theorem get?_eq_dash (h : SameUpToCase bs bt) (i : Nat) :
    bs.get? i = some 45 ↔ bt.get? i = some 45 := by
  have hi : (bs.get? i).map lowerByte = (bt.get? i).map lowerByte := by
    simpa only [List.get?_eq_getElem?, List.getElem?_map] using congrArg (·[i]?) h
  cases hb : bs.get? i <;> cases hc : bt.get? i <;>
    simp only [hb, hc, Option.map_none', Option.map_some', reduceCtorEq, Option.some.injEq]
      at hi ⊢
  rw [← lowerByte_eq_dash, hi, lowerByte_eq_dash]

end SameUpToCase

theorem hexDigits_congr : ∀ {bs bt : List UInt8}, SameUpToCase bs bt →
    hexDigits bs = hexDigits bt
  | [], [], _ => rfl
  | b :: bs, c :: cs, h => by
    simp only [SameUpToCase, List.map_cons, List.cons.injEq] at h
    have hv : hexValue b = hexValue c := by
      rw [← hexValue_lowerByte b, h.1, hexValue_lowerByte]
    have ih : bs.mapM hexValue = cs.mapM hexValue := hexDigits_congr h.2
    simp only [hexDigits, List.mapM_cons, hv, ih]
  | [], _ :: _, h | _ :: _, [], h => nomatch h

theorem parseDashed_congr {bs bt : List UInt8} (h : SameUpToCase bs bt) :
    parseDashed bs = parseDashed bt := by
  unfold parseDashed
  refine if_congr (by simp only [h.get?_eq_dash]) (hexDigits_congr ?_) rfl
  exact ((((h.take 8).append ((h.drop 9).take 4)).append ((h.drop 14).take 4)).append
    ((h.drop 19).take 4)).append ((h.drop 24).take 12)

/-- Texts whose UTF-8 bytes are equal up to ASCII letter case parse alike: every layout's
    length, the `urn:uuid:` prefix, the dashes and the digits all read the same. -/
theorem parse_congr {s t : String}
    (h : SameUpToCase (s.data.flatMap String.utf8EncodeChar)
      (t.data.flatMap String.utf8EncodeChar)) :
    parse s = parse t := by
  simp only [parse]
  generalize s.data.flatMap String.utf8EncodeChar = bs at h ⊢
  generalize t.data.flatMap String.utf8EncodeChar = bt at h ⊢
  rw [h.length_eq, parseDashed_congr h,
    show (bs.take 9).map lowerByte = (bt.take 9).map lowerByte from h.take 9,
    parseDashed_congr (h.drop 9), parseDashed_congr (h.drop 1), hexDigits_congr h]

theorem parse_eq_of_toLower {s t : String}
    (h : s.data.map Char.toLower = t.data.map Char.toLower) : parse s = parse t :=
  parse_congr (by rw [SameUpToCase, utf8_map_lowerByte, utf8_map_lowerByte, h])

end Uuid

/-- A message whose dedup text is an earlier message's UUID text in other letter case, on the
    same queue, repeats that message's dedup id. -/
theorem RepeatsDedupId.of_recased {q : List LocalQueueRow} {pid : Uuid}
    {pre : List LocalQueueMessage} {m' m : LocalQueueMessage} (hm' : m' ∈ pre)
    (hq : m'.queueName = m.queueName) (hu : Uuid.parse (m'.dedupId.getD "") ≠ none)
    (hc : (m'.dedupId.getD "").data.map Char.toLower =
      (m.dedupId.getD "").data.map Char.toLower) :
    RepeatsDedupId q pid pre m := by
  obtain ⟨u, hu⟩ := Option.ne_none_iff_exists'.1 hu
  exact ⟨u, Uuid.parse_eq_of_toLower hc ▸ hu, .inr ⟨m', hm', hq, hu⟩⟩

/-- A publish that carries a UUID dedup id on a queue and later the same text in other letter
    case fails both transactions that publish, which roll back. -/
theorem recased_dedup_id_rolls_back {s : Store} {pre post : List LocalQueueMessage}
    {m' m : LocalQueueMessage} (hm' : m' ∈ pre) (hq : m'.queueName = m.queueName)
    (hu : Uuid.parse (m'.dedupId.getD "") ≠ none)
    (hc : (m'.dedupId.getD "").data.map Char.toLower =
      (m.dedupId.getD "").data.map Char.toLower) :
    (∀ request : ProcessWaitUntilExecutionRequest, request.publishToLocalQueue = pre ++ m :: post →
      ∃ err, processWaitUntilExecution s request = (.error err, s)) ∧
    ∀ request : CompleteExecuteExecutionRequest, request.publishToLocalQueue = pre ++ m :: post →
      ∃ err, completeExecuteExecution s request = (.error err, s) :=
  ⟨fun _ hr => processWaitUntilExecution_of_repeats hr (.of_recased hm' hq hu hc),
    fun _ hr => completeExecuteExecution_of_repeats hr (.of_recased hm' hq hu hc)⟩

/-- A message to "q" whose dedup id is a UUID in lower case. -/
def lowerCaseMessage : LocalQueueMessage :=
  ⟨"q", some "123e4567-e89b-12d3-a456-426614174000", none⟩

/-- The same message with its dedup id in upper case. -/
def upperCaseMessage : LocalQueueMessage :=
  ⟨"q", some "123E4567-E89B-12D3-A456-426614174000", none⟩

theorem lower_then_upper_dedup_id_rolls_back :
    (∀ request : ProcessWaitUntilExecutionRequest,
      request.publishToLocalQueue = [lowerCaseMessage] ++ upperCaseMessage :: [] →
        ∃ err, processWaitUntilExecution .empty request = (.error err, .empty)) ∧
    ∀ request : CompleteExecuteExecutionRequest,
      request.publishToLocalQueue = [lowerCaseMessage] ++ upperCaseMessage :: [] →
        ∃ err, completeExecuteExecution .empty request = (.error err, .empty) :=
  recased_dedup_id_rolls_back (List.mem_singleton_self _) rfl (by decide) (by decide)

end Xdb
