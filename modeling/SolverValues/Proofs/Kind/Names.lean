import SolverValues.Proofs.Kind.Reading

/-!
Kinds told apart by their names. A list's name is that of its element between two marks that no
other name starts with, so names tell as much about lists as they do about innermost kinds.
-/
namespace SolverValues.Kind

variable {k a b : Kind}

/-- The kind with nothing but the name left of a user sort. -/
def forgetShape : Kind → Kind
  | .list element => .list element.forgetShape
  | .user sort => .user { sort with shape := .uninterpreted "" }
  | kind => kind

/-- The kind with unsigned bit-vectors for signed ones, and bytes for characters. -/
def forgetSign : Kind → Kind
  | .list element => .list element.forgetSign
  | .bitVector _ width => .word width
  | .char => .word 8
  | kind => kind

/-- Names that are written around those of elements for lists, and never so for other kinds. -/
structure Nests (naming : Kind → String) (opening closing : String) (P : Kind → Prop) : Prop where
  list_eq : ∀ element, naming (.list element) = opening ++ naming element ++ closing
  plain_ne : ∀ k element, k.family ≠ .list → P k → naming k ≠ naming (.list element)

/-- What holds of all other kinds, and of a list as soon as of its element, holds of every kind. -/
theorem list_induction {motive : Kind → Prop} (plain : ∀ k, k.family ≠ .list → motive k)
    (list : ∀ element, motive element → motive (.list element)) (k : Kind) : motive k := by
  induction k with
  | list element ih => exact list element ih
  | _ => exact plain _ (by simp [family])

theorem innermost_of_plain (h : k.family ≠ .list) : k.innermost = k := by
  cases k with
  | list element => exact (h rfl).elim
  | _ => rfl

/-- Names that nest tell kinds apart as far as they tell innermost kinds apart. -/
theorem Nests.eq_iff {naming : Kind → String} {opening closing : String} {P : Kind → Prop}
    {forget : Kind → Kind} (hnests : Nests naming opening closing P)
    (hlist : ∀ element, forget (.list element) = .list (forget element))
    (hfamily : ∀ k : Kind, k.family ≠ .list → (forget k).family ≠ .list)
    (hplain : ∀ a b : Kind, a.family ≠ .list → b.family ≠ .list → P a → P b →
      (naming a = naming b ↔ forget a = forget b))
    (ha : P a.innermost) (hb : P b.innermost) : naming a = naming b ↔ forget a = forget b := by
  have hne (k element : Kind) (hk : k.family ≠ .list) : forget k ≠ forget (.list element) := by
    intro h
    exact hfamily k hk (by rw [h, hlist]; rfl)
  -- Both names lose one pair of marks at a time. If one kind runs out of lists before the other, its
  -- name has no marks, and its family tells that it is no list.
  induction a using list_induction generalizing b with
  | plain a hplainA =>
    rw [innermost_of_plain hplainA] at ha
    induction b using list_induction with
    | plain b hplainB =>
      rw [innermost_of_plain hplainB] at hb
      exact hplain a b hplainA hplainB ha hb
    | list b _ => exact iff_of_false (hnests.plain_ne a b hplainA ha) (hne a b hplainA)
  | list a ih =>
    induction b using list_induction with
    | plain b hplainB =>
      rw [innermost_of_plain hplainB] at hb
      exact iff_of_false (hnests.plain_ne b a hplainB hb).symm (hne b a hplainB).symm
    | list b _ =>
      rw [hnests.list_eq, hnests.list_eq, hlist, hlist, String.append_left_inj,
        String.append_right_inj, list.injEq]
      exact ih ha hb

theorem family_forgetShape (k : Kind) : k.forgetShape.family = k.family := by
  cases k <;> rfl

theorem family_forgetSign (k : Kind) (h : k.family ≠ .list) : k.forgetSign.family ≠ .list := by
  cases k with
  | list element => exact (h rfl).elim
  | _ => exact Family.noConfusion

theorem name_forgetShape (k : Kind) : k.forgetShape.name = k.name := by
  induction k with
  | list element ih => simp [forgetShape, name, ih]
  | _ => rfl

theorem wireName_forgetSign (k : Kind) : k.forgetSign.wireName = k.wireName := by
  induction k with
  | list element ih =>
    change "(Seq " ++ element.forgetSign.wireName ++ ")" = _
    rw [ih, wireName]
  | _ => rfl

theorem plainName_or_user (h : k.family ≠ .list) :
    PlainName k.name.toList k ∨ ∃ sort, k = .user sort := by
  cases k with
  | user sort => exact .inr ⟨sort, rfl⟩
  | _ => exact .inl (plainName_name _ h (by simp [family]))

theorem nests_name : Nests name "[" "]" fun _ => True where
  list_eq _ := rfl
  plain_ne k element hplain _ h := by
    have hbrackets : unbracket? k.name.toList = some element.name.toList := by
      rw [h]
      simp [name]
    -- A user sort's name may end in a bracket, but it does not start with one.
    obtain hk | ⟨sort, rfl⟩ := plainName_or_user hplain
    · cases hk.unbracket?.symm.trans hbrackets
    · have hfree := reservedStart?_eq_none.mp sort.unreserved "[" (by decide)
      cases (unbracket?_eq_none hfree).symm.trans hbrackets

theorem name_eq_iff_of_plain (ha : a.family ≠ .list) (hb : b.family ≠ .list) :
    a.name = b.name ↔ a.forgetShape = b.forgetShape := by
  constructor
  · intro h
    obtain ha | ⟨s, rfl⟩ := plainName_or_user ha <;> obtain hb | ⟨t, rfl⟩ := plainName_or_user hb
    · have hread := readChars_of_plainName ha
      rw [h, readChars_of_plainName hb] at hread
      cases hread
      rfl
    · have hread := readChars_of_plainName ha
      rw [h] at hread
      cases (readChars_userName t).symm.trans hread
    · have hread := readChars_of_plainName hb
      rw [← h] at hread
      cases (readChars_userName s).symm.trans hread
    · have hname : s.name = t.name := h
      simp [forgetShape, hname]
  · intro h
    rw [← name_forgetShape a, h, name_forgetShape]

theorem name_of_plain (hlist : k.family ≠ .list) (huser : ∀ sort, k ≠ .user sort) :
    k.name = "S" ++ k.baseName := by
  cases k with
  | list element => exact (hlist rfl).elim
  | user sort => exact (huser sort rfl).elim
  | _ => rfl

theorem nests_baseName : Nests baseName "[" "]" fun k => ∀ sort, k ≠ .user sort where
  list_eq _ := rfl
  plain_ne k element hplain huser h := by
    have hchars := congrArg String.toList h
    cases k with
    | list element => exact hplain rfl
    | user sort => exact huser sort rfl
    | bitVector signed width => cases signed <;> simp [baseName] at hchars
    | _ => simp [baseName] at hchars

theorem nests_wireName : Nests wireName "(Seq " ")" fun k => ∀ sort, k ≠ .user sort where
  list_eq _ := rfl
  plain_ne k element hplain huser h := by
    have hchars := congrArg String.toList h
    cases k with
    | list element => exact hplain rfl
    | user sort => exact huser sort rfl
    | _ => simp [wireName] at hchars

theorem baseName_eq_iff_of_plain (ha : a.family ≠ .list) (hb : b.family ≠ .list)
    (hua : ∀ sort, a ≠ .user sort) (hub : ∀ sort, b ≠ .user sort) :
    a.baseName = b.baseName ↔ a = b := by
  constructor
  · intro h
    have hname : a.name = b.name := by rw [name_of_plain ha hua, name_of_plain hb hub, h]
    have hread := readChars_name (k := a) (by rwa [innermost_of_plain ha])
    rw [hname, readChars_name (by rwa [innermost_of_plain hb])] at hread
    cases hread
    rfl
  · rintro rfl
    rfl

theorem width_eq_of_toDigits_eq {w w' : UInt64}
    (h : Nat.toDigits 10 w.toNat = Nat.toDigits 10 w'.toNat) : w = w' := by
  have hread := readWidth?_toDigits w
  rw [h, readWidth?_toDigits] at hread
  exact (Option.some.inj hread).symm

/-- Only widths are spelled out in the names that queries use; a character's is that of a byte. -/
theorem wireName_eq_iff_of_plain (ha : a.family ≠ .list) (hb : b.family ≠ .list)
    (hua : ∀ sort, a ≠ .user sort) (hub : ∀ sort, b ≠ .user sort) :
    a.wireName = b.wireName ↔ a.forgetSign = b.forgetSign := by
  constructor
  · intro h
    have hchars := congrArg String.toList h
    -- Names of two families differ in their letters. What is left has the digits of a width in it.
    cases a <;> cases b <;> simp [wireName, family] at hchars ha hb hua hub ⊢
    case bitVector.bitVector => exact congrArg word (width_eq_of_toDigits_eq hchars)
    case bitVector.char width =>
      exact congrArg word (width_eq_of_toDigits_eq (List.append_cancel_right hchars))
    case char.bitVector width =>
      exact congrArg word (width_eq_of_toDigits_eq (List.append_cancel_right hchars))
  · intro h
    rw [← wireName_forgetSign a, h, wireName_forgetSign]

/-- Displayed names differ but for kinds that differ in the shape of a user sort alone, below the
same number of lists. Without user sorts, base names tell all kinds apart, and the names in queries
all but those that differ in the signs of bit-vectors and in bytes for characters. -/
theorem names_collide_iff (a b : Kind) :
    (a.name = b.name ↔ a.forgetShape = b.forgetShape) ∧
    ((∀ sort, a.innermost ≠ .user sort) → (∀ sort, b.innermost ≠ .user sort) →
      (a.baseName = b.baseName ↔ a = b) ∧
      (a.wireName = b.wireName ↔ a.forgetSign = b.forgetSign)) := by
  refine ⟨?_, fun hua hub => ⟨?_, ?_⟩⟩
  · have hfamily (k : Kind) (h : k.family ≠ .list) : k.forgetShape.family ≠ .list := by
      rwa [family_forgetShape]
    exact nests_name.eq_iff (fun _ => rfl) hfamily
      (fun _ _ ha hb _ _ => name_eq_iff_of_plain ha hb) trivial trivial
  · change a.baseName = b.baseName ↔ id a = id b
    exact nests_baseName.eq_iff (fun _ => rfl) (fun _ h => h)
      (fun _ _ => baseName_eq_iff_of_plain) hua hub
  · exact nests_wireName.eq_iff (fun _ => rfl) family_forgetSign
      (fun _ _ => wireName_eq_iff_of_plain) hua hub

/-- A user sort whose name ends in a bracket with two shapes, and a character for a signed byte. -/
theorem names_collide_iff_nested :
    (∃ s t : UserSort, s ≠ t ∧ (list (user s)).name = (list (user t)).name) ∧
    (list (user ⟨"A]", .enumerated [], by decide⟩)).name ≠ (list (list .bool)).name ∧
    (list (list .char)).wireName = (list (list (int 8))).wireName ∧
    (list (list .char)).baseName ≠ (list (list (int 8))).baseName := by
  refine ⟨?_, ?_, ?_, ?_⟩
  · refine ⟨⟨"A]", .enumerated ["B"], by decide⟩, ⟨"A]", .uninterpreted "", by decide⟩, by simp, ?_⟩
    exact (names_collide_iff _ _).1.mpr rfl
  · exact mt (names_collide_iff _ _).1.mp (by simp [forgetShape])
  · exact ((names_collide_iff _ _).2 (by simp [innermost]) (by simp [innermost])).2.mpr rfl
  · exact mt ((names_collide_iff _ _).2 (by simp [innermost]) (by simp [innermost])).1.mp (by simp)

end SolverValues.Kind
