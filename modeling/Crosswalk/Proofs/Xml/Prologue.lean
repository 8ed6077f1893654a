import Crosswalk.Proofs.Xml.Reader

/-!
# What stands before the root

The declaration, the comments and instructions and the document type before the first tag are read
without regard to what follows the tag:

    prologue? keep s = some (ns, '<' :: c :: u) → isNameStart c →
      prologue? keep (s ++ z) = some (ns, '<' :: c :: (u ++ z))                 (prologue?_append)
-/

namespace Crosswalk.Xml

open Text

variable {keep : Bool} {s t z rest : Text} {ns : List Node} {fuel fuel' : Nat}

/-! ## Comments and instructions outside of the root -/

/-- Neither a comment nor an instruction, nor a space. -/
structure Stopped (s : Text) : Prop where
  skipped : skipSpace s = s
  comment : ∀ t, s ≠ '<' :: '!' :: '-' :: '-' :: t
  instruction : ∀ t, s ≠ '<' :: '?' :: t

theorem skipSpace_skipSpace (s : Text) : skipSpace (skipSpace s) = skipSpace s := by
  induction s with
  | nil => rfl
  | cons c s ih =>
    unfold skipSpace at *
    rw [List.dropWhile_cons]
    split
    · exact ih
    · next hc => rw [List.dropWhile_cons, if_neg hc]

theorem stopped_or (s : Text) : Stopped (skipSpace s) ∨
    (∃ t, skipSpace s = '<' :: '!' :: '-' :: '-' :: t) ∨ ∃ t, skipSpace s = '<' :: '?' :: t := by
  by_cases hcomment : ∃ t, skipSpace s = '<' :: '!' :: '-' :: '-' :: t
  · exact .inr (.inl hcomment)
  · by_cases hinstruction : ∃ t, skipSpace s = '<' :: '?' :: t
    · exact .inr (.inr hinstruction)
    · exact .inl ⟨skipSpace_skipSpace s, fun t h => hcomment ⟨t, h⟩,
        fun t h => hinstruction ⟨t, h⟩⟩

theorem readMisc?_of_stopped (h : Stopped (skipSpace s)) :
    readMisc? keep (fuel + 1) s = some ([], skipSpace s) := by
  rw [readMisc?]
  split
  · next t ht => exact absurd ht (h.comment t)
  · next t ht => exact absurd ht (h.instruction t)
  · rfl

theorem readMisc?_comment (h : skipSpace s = '<' :: '!' :: '-' :: '-' :: t) :
    readMisc? keep (fuel + 1) s = (readComment? t).bind fun p => (readMisc? keep fuel p.2).map
      fun q => (if keep then .comment p.1 :: q.1 else q.1, q.2) := by
  rw [readMisc?, h]
  cases hread : readComment? t <;> simp [hread]

theorem readMisc?_instruction (h : skipSpace s = '<' :: '?' :: t) :
    readMisc? keep (fuel + 1) s = (readInstruction? t).bind fun p => (readMisc? keep fuel p.2).map
      fun q => (.instruction p.1.1 p.1.2 :: q.1, q.2) := by
  rw [readMisc?, h]
  cases hread : readInstruction? t <;> simp [hread]

theorem stopped_readMisc? (h : readMisc? keep fuel s = some (ns, rest)) : Stopped rest := by
  induction fuel generalizing s ns with
  | zero => cases h
  | succ fuel ih =>
    rcases stopped_or s with hstop | ⟨t, ht⟩ | ⟨t, ht⟩
    · rw [readMisc?_of_stopped hstop] at h
      cases h
      exact hstop
    · rw [readMisc?_comment ht] at h
      obtain ⟨p, -, h⟩ := Option.bind_eq_some_iff.1 h
      obtain ⟨q, hq, he⟩ := Option.map_eq_some_iff.1 h
      obtain ⟨-, rfl⟩ := Prod.mk.inj he
      exact ih hq
    · rw [readMisc?_instruction ht] at h
      obtain ⟨p, -, h⟩ := Option.bind_eq_some_iff.1 h
      obtain ⟨q, hq, he⟩ := Option.map_eq_some_iff.1 h
      obtain ⟨-, rfl⟩ := Prod.mk.inj he
      exact ih hq

theorem readMisc?_append (h : readMisc? keep fuel s = some (ns, rest)) (hne : rest ≠ [])
    (hstop : Stopped (rest ++ z)) (hfuel : (s ++ z).length < fuel') :
    readMisc? keep fuel' (s ++ z) = some (ns, rest ++ z) := by
  induction fuel generalizing s ns fuel' with
  | zero => cases h
  | succ fuel ih =>
    obtain ⟨fuel', rfl⟩ : ∃ n, fuel' = n + 1 := ⟨fuel' - 1, by omega⟩
    have hspace := length_skipSpace s
    have hroom : ∀ {u : Text}, u.length < s.length → (u ++ z).length < fuel' := by
      intro u hu
      rw [List.length_append] at hfuel ⊢
      omega
    rcases stopped_or s with hhere | ⟨t, ht⟩ | ⟨t, ht⟩
    · rw [readMisc?_of_stopped hhere] at h
      cases h
      rw [← skipSpace_append hne] at hstop ⊢
      exact readMisc?_of_stopped hstop
    · rw [readMisc?_comment ht] at h
      obtain ⟨p, hp, h⟩ := Option.bind_eq_some_iff.1 h
      obtain ⟨q, hq, he⟩ := Option.map_eq_some_iff.1 h
      obtain ⟨rfl, rfl⟩ := Prod.mk.inj he
      obtain ⟨hshorter, hread⟩ := readComment?_append hp z
      have hlonger : skipSpace (s ++ z) = '<' :: '!' :: '-' :: '-' :: (t ++ z) := by
        rw [skipSpace_append (ht ▸ List.cons_ne_nil _ _), ht]
        rfl
      rw [ht] at hspace
      simp only [List.length_cons] at hspace
      rw [readMisc?_comment hlonger, hread, Option.bind_some, ih hq (hroom (by omega))]
      rfl
    · rw [readMisc?_instruction ht] at h
      obtain ⟨p, hp, h⟩ := Option.bind_eq_some_iff.1 h
      obtain ⟨q, hq, he⟩ := Option.map_eq_some_iff.1 h
      obtain ⟨rfl, rfl⟩ := Prod.mk.inj he
      obtain ⟨hshorter, hread⟩ := readInstruction?_append hp z
      have hlonger : skipSpace (s ++ z) = '<' :: '?' :: (t ++ z) := by
        rw [skipSpace_append (ht ▸ List.cons_ne_nil _ _), ht]
        rfl
      rw [ht] at hspace
      simp only [List.length_cons] at hspace
      rw [readMisc?_instruction hlonger, hread, Option.bind_some, ih hq (hroom (by omega))]
      rfl

/-! ## Document types -/

def doctypeMark : Text := "<!DOCTYPE"

theorem doctypeMark_eq : doctypeMark = ['<', '!', 'D', 'O', 'C', 'T', 'Y', 'P', 'E'] := by decide

theorem skipDoctype?_of_not (h : after? doctypeMark s = none) : skipDoctype? s = some s := by
  unfold doctypeMark at h
  rw [skipDoctype?, h]

theorem skipDoctype?_append (h : after? doctypeMark s = some t) (hskip : skipDoctype? s = some rest)
    (z : Text) : skipDoctype? (s ++ z) = some (rest ++ z) := by
  have hlonger := after?_append_right h z
  unfold doctypeMark at h hlonger
  rw [skipDoctype?, h] at hskip
  rw [skipDoctype?, hlonger]
  dsimp only at hskip ⊢
  cases hcut : cutChar? '>' t with
  | none => rw [hcut] at hskip; cases hskip
  | some p =>
    obtain ⟨a, u⟩ := p
    rw [hcut] at hskip
    rw [cutChar?_append_right hcut]
    dsimp only at hskip ⊢
    split at hskip
    · next hopen =>
      obtain ⟨q, hq, rfl⟩ := Option.map_eq_some_iff.1 hskip
      rw [if_pos hopen, cut?_append_right (by decide) hq]
      rfl
    · next hopen =>
      cases hskip
      rw [if_neg hopen]

theorem stopped_doctype (h : after? doctypeMark s = some t) : Stopped s := by
  rw [doctypeMark_eq] at h
  rw [after?_eq_some.1 h]
  exact ⟨rfl, fun u hu => by simp at hu, fun u hu => by simp at hu⟩

theorem after?_doctype_of_name {c : Char} (hc : isNameStart c = true) (s : Text) :
    after? doctypeMark ('<' :: c :: s) = none := by
  rw [doctypeMark_eq]
  simp [after?, (ne_of_isNameStart hc (d := '!') (by decide)).symm]

theorem stopped_of_name {c : Char} (hc : isNameStart c = true) (s : Text) :
    Stopped ('<' :: c :: s) := by
  refine ⟨rfl, fun t h => ?_, fun t h => ?_⟩
  · exact ne_of_isNameStart hc (by decide) (List.cons.inj (List.cons.inj h).2).1
  · exact ne_of_isNameStart hc (by decide) (List.cons.inj (List.cons.inj h).2).1

/-! ## Before the root -/

/-- The nodes before the root, and the rest. -/
def prologue? (keep : Bool) (s : Text) : Option (List Node × Text) :=
  (readMisc? keep (s.length + 1) s).bind fun a => (skipDoctype? a.2).bind fun u =>
    (readMisc? keep (u.length + 1) u).map fun b => (a.1 ++ b.1, b.2)

/-- The document from its root on. -/
def rootFrom? (keep : Bool) (before : List Node) : Text → Option Document
  | '<' :: v => (element? keep [] v).bind fun e =>
      (readMisc? keep (e.2.length + 1) e.2).bind fun a =>
        if a.2 = [] then some ⟨before ++ e.1 :: a.1⟩ else none
  | _ => none

theorem readNodes?_eq (keep : Bool) (s : Text) :
    readNodes? keep s = (prologue? keep s).bind fun p => rootFrom? keep p.1 p.2 := by
  rw [readNodes?, prologue?]
  cases readMisc? keep (s.length + 1) s with
  | none => rfl
  | some a =>
    obtain ⟨before, t⟩ := a
    dsimp only [Option.bind_some]
    cases skipDoctype? t with
    | none => rfl
    | some u =>
      dsimp only [Option.bind_some]
      split
      · next between v hbetween =>
        rw [hbetween]
        dsimp only [Option.map_some, Option.bind_some]
        rw [rootFrom?, element?]
        cases readElement? keep [] (v.length + 1) v with
        | none => rfl
        | some e =>
          obtain ⟨root, w⟩ := e
          dsimp only [Option.bind_some]
          split
          · next after hafter =>
            rw [hafter]
            simp
          · next hother =>
            cases hafter : readMisc? keep (w.length + 1) w with
            | none => rfl
            | some a =>
              obtain ⟨after, r⟩ := a
              have hr : r ≠ [] := fun e => hother after (by rw [hafter, e])
              exact (if_neg hr).symm
      · next hother =>
        cases hbetween : readMisc? keep (u.length + 1) u with
        | none => rfl
        | some b =>
          obtain ⟨between, r⟩ := b
          dsimp only [Option.map_some, Option.bind_some]
          rw [rootFrom?]
          exact fun v e => hother between v (by rw [hbetween, e])

/-- **Before the root** nothing depends on what follows its name. -/
theorem prologue?_append {c : Char} (hc : isNameStart c = true)
    (h : prologue? keep s = some (ns, '<' :: c :: t)) (z : Text) :
    prologue? keep (s ++ z) = some (ns, '<' :: c :: (t ++ z)) := by
  obtain ⟨a, ha, h⟩ := Option.bind_eq_some_iff.1 h
  obtain ⟨u, hu, h⟩ := Option.bind_eq_some_iff.1 h
  obtain ⟨b, hb, he⟩ := Option.map_eq_some_iff.1 h
  obtain ⟨rfl, hrest⟩ := Prod.mk.inj he
  have hstop : Stopped (b.2 ++ z) := by
    rw [hrest]
    exact stopped_of_name hc (t ++ z)
  have hne : b.2 ≠ [] := hrest ▸ List.cons_ne_nil _ _
  have hbetween := readMisc?_append hb hne hstop (Nat.lt_succ_self _)
  cases hmark : after? doctypeMark a.2 with
  | some v =>
    have hstop' := stopped_doctype (after?_append_right hmark z)
    have hne' : a.2 ≠ [] := fun e => by rw [e, doctypeMark_eq] at hmark; cases hmark
    rw [prologue?, readMisc?_append ha hne' hstop' (Nat.lt_succ_self _), Option.bind_some,
      skipDoctype?_append hmark hu, Option.bind_some, hbetween, hrest]
    rfl
  | none =>
    rw [skipDoctype?_of_not hmark] at hu
    cases hu
    -- The second run takes nothing, so the first one stopped at the root.
    have hfirst := stopped_readMisc? ha
    have hnothing : readMisc? keep (a.2.length + 1) a.2 = some ([], a.2) := by
      rw [readMisc?_of_stopped (by rwa [hfirst.skipped]), hfirst.skipped]
    rw [hnothing] at hb
    cases hb
    have hskip' : skipDoctype? (a.2 ++ z) = some (a.2 ++ z) := by
      rw [hrest]
      exact skipDoctype?_of_not (after?_doctype_of_name hc (t ++ z))
    rw [prologue?, readMisc?_append ha hne hstop (Nat.lt_succ_self _), Option.bind_some, hskip',
      Option.bind_some, hbetween, hrest]
    rfl

/-! ## Declarations and encodings -/

def declarationMark : Text := "<?xml"

theorem readDeclaration?_append {encoding : Option Text}
    (h : readDeclaration? s = some (encoding, rest)) (hclosed : '>' ∈ rest) (z : Text) :
    readDeclaration? (s ++ z) = some (encoding, rest ++ z) := by
  rw [readDeclaration?] at h
  cases hmark : after? declarationMark s with
  | none =>
    have hlonger : after? declarationMark (s ++ z) = none := by
      unfold declarationMark at hmark
      rw [hmark] at h
      cases h
      have hstart := not_startsWith_append hclosed (by decide) (after?_eq_none.1 hmark) z
      exact after?_eq_none.2 hstart
    unfold declarationMark at hmark hlonger
    rw [hmark] at h
    rw [readDeclaration?, hlonger]
    cases h
    rfl
  | some t =>
    have hlonger := after?_append_right hmark z
    unfold declarationMark at hmark hlonger
    rw [hmark] at h
    rw [readDeclaration?, hlonger]
    dsimp only at h ⊢
    have hne : t ≠ [] := by
      rintro rfl
      cases h
      rw [after?_eq_some.1 hmark, List.append_nil] at hclosed
      exact absurd hclosed (by decide)
    have hhead : (t ++ z).head? = t.head? := by
      obtain ⟨c, u, rfl⟩ := List.exists_cons_of_ne_nil hne
      rfl
    rw [hhead]
    split at h
    · next hspace =>
      rw [if_pos hspace]
      cases hcut : cut? ['?', '>'] t with
      | none => rw [hcut] at h; cases h
      | some p =>
        rw [hcut] at h
        rw [cut?_append_right (by decide) hcut]
        dsimp only at h ⊢
        split at h
        · next written hwritten =>
          split at h
          · next hversion =>
            cases h
            rw [if_pos hversion]
          · cases h
        · cases h
    · next hspace =>
      cases h
      rw [if_neg hspace]

/-- The octets of a character, as characters. -/
def octetsOf (c : Char) : Text := (String.utf8EncodeChar c).map fun b => Char.ofNat b.toNat

/-- The characters that stand for a character of the text, when the encoding is known. -/
def coding? : Option Text → Option (Char → Text)
  | none => some fun c => [c]
  | some name =>
    if isPlainEncoding name then some fun c => [c]
    else if isOctetEncoding name then some octetsOf
    else none

theorem read?_eq (h : s.head? = some '<') (keep : Bool) :
    read? keep s = (readDeclaration? (unifyLines s)).bind fun p =>
      (coding? p.1).bind fun f => readNodes? keep (p.2.flatMap f) := by
  obtain ⟨t, rfl⟩ := List.head?_eq_some_iff.1 h
  rw [read?]
  split
  · next hnone => rw [hnone]; rfl
  · next hplain => simp [hplain, coding?]
  · next encoding rest hencoding =>
    rw [hencoding, Option.bind_some, coding?]
    split
    · simp
    · split <;> rfl
  · intro u hu
    cases hu

/-- Characters of ASCII stand for themselves, and other ones for other ones. -/
structure Faithful (f : Char → Text) : Prop where
  ascii : ∀ c, c.toNat < 0x80 → f c = [c]
  other : ∀ c, 0x80 ≤ c.toNat → f c ≠ [] ∧
    ∀ d ∈ f c, 0x80 ≤ d.toNat ∧ (isAllowed c = true → isAllowed d = true)

theorem ne_of_ascii {c d : Char} (hc : 0x80 ≤ c.toNat) (hd : d.toNat < 0x80) : c ≠ d := by
  rintro rfl
  omega

theorem Faithful.mem_of_flatMap {f : Char → Text} (hf : Faithful f) {c : Char} (hc : c.toNat < 0x80)
    (h : c ∈ s.flatMap f) : c ∈ s := by
  obtain ⟨d, hd, hmem⟩ := List.mem_flatMap.1 h
  rcases Nat.lt_or_ge d.toNat 0x80 with hlow | hhigh
  · rw [hf.ascii d hlow] at hmem
    rwa [List.mem_singleton.1 hmem]
  · exact absurd rfl (ne_of_ascii ((hf.other d hhigh).2 c hmem).1 hc)

theorem toNat_mem_utf8EncodeChar {c : Char} (hc : 0x80 ≤ c.toNat) :
    ∀ b ∈ String.utf8EncodeChar c, 0x80 ≤ b.toNat := by
  have hv : c.val.toNat = c.toNat := rfl
  unfold String.utf8EncodeChar
  simp only [hv]
  rw [if_neg (by omega)]
  split
  · simp
    omega
  · split <;> (simp; omega)

theorem faithful_octets : Faithful octetsOf := by
  constructor
  · intro c hc
    have hv : c.val.toNat = c.toNat := rfl
    have hoctet : (UInt8.ofNat c.toNat).toNat = c.toNat := by
      rw [UInt8.toNat_ofNat', Nat.mod_eq_of_lt (by omega)]
    unfold octetsOf String.utf8EncodeChar
    simp only [hv]
    rw [if_pos (by omega), List.map_singleton, hoctet, Char.ofNat_toNat]
  · intro c hc
    have hchar : ∀ n < 256, 0x80 ≤ n →
        0x80 ≤ (Char.ofNat n).toNat ∧ isAllowed (Char.ofNat n) = true := by decide +kernel
    refine ⟨fun h => String.utf8EncodeChar_ne_nil (List.map_eq_nil_iff.1 h), fun d hd => ?_⟩
    obtain ⟨b, hb, rfl⟩ := List.mem_map.1 hd
    obtain ⟨hcode, hallowed⟩ := hchar b.toNat b.toNat_lt (toNat_mem_utf8EncodeChar hc b hb)
    exact ⟨hcode, fun _ => hallowed⟩

theorem faithful_coding {encoding : Option Text} {f : Char → Text}
    (h : coding? encoding = some f) : Faithful f := by
  have hplain : Faithful fun c => [c] :=
    ⟨fun c _ => rfl, fun c hc => ⟨List.cons_ne_nil _ _, fun d hd => by
      rw [List.mem_singleton.1 hd]
      exact ⟨hc, id⟩⟩⟩
  unfold coding? at h
  split at h
  · cases h
    exact hplain
  · split at h
    · cases h
      exact hplain
    · split at h
      · cases h
        exact faithful_octets
      · cases h

end Crosswalk.Xml
