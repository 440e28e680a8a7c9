import SolverValues.Proofs.Kind.Reading

/-!
Building the kind of a described type. A reserved name is refused before anything is asked. For any
other name the shape follows from the answers, and nothing is asked beyond the first constructor
that is not given back as it is.
-/
namespace SolverValues

/-- Answers as `reprint` does, and does `note` for every text it is asked about. -/
def noting {m : Type → Type} [Monad m] (note : String → m Unit) (reprint : String → Option String)
    (text : String) : m (Option String) := do
  note text
  return reprint text

namespace Description

variable {m : Type → Type} [Monad m] {d : Description} {reprint : String → Option String}
  {ask : String → m (Option String)} {start changed : String} {names before after : List String}

/-- The names of the constructors, in declaration order. -/
def constructorNames (d : Description) : List String := d.constructors.map (·.name)

/-- There are constructors, and none of them has fields. -/
def IsNullary (d : Description) : Prop :=
  d.constructors ≠ [] ∧ ∀ c ∈ d.constructors, c.fieldCount = 0

/-- The kind that a type is given if `reprint` answers, or why it is given none. -/
def outcome (d : Description) (reprint : String → Option String) : Except Fault Kind :=
  ((d.build (recording reprint)).run []).1.result

/-- The texts that `reprint` is asked about for a type, in order. -/
def asked (d : Description) (reprint : String → Option String) : List String :=
  ((d.build (recording reprint)).run []).2

theorem reservedStart?_eq_some_iff {name : String} : reservedStart? name = some start ↔
    ∃ before after, reservedStarts = before ++ start :: after ∧
      (∀ s ∈ before, ¬ s.toList <+: name.toList) ∧ start.toList <+: name.toList := by
  have hprefix (s : String) :
      s.toList.isPrefixOf name.toList = false ↔ ¬ s.toList <+: name.toList := by
    rw [← List.isPrefixOf_iff_prefix, Bool.eq_false_iff]
  rw [reservedStart?, List.find?_eq_some_iff_append]
  simp only [List.isPrefixOf_iff_prefix, Bool.not_eq_true', hprefix]
  constructor
  · rintro ⟨hstart, before, after, htable, hbefore⟩
    exact ⟨before, after, htable, hbefore, hstart⟩
  · rintro ⟨before, after, htable, hbefore, hstart⟩
    exact ⟨hstart, before, after, htable, hbefore⟩

/-- All names are given back, or one of them is the first that is not. -/
theorem all_kept_or_first_changed (reprint : String → Option String) (names : List String) :
    (∀ name ∈ names, reprint name = some name) ∨
      ∃ before changed after, names = before ++ changed :: after ∧
        (∀ name ∈ before, reprint name = some name) ∧ reprint changed ≠ some changed := by
  cases h : names.find? fun name => reprint name ≠ some name with
  | none => exact .inl (by simpa using h)
  | some changed =>
    obtain ⟨hchanged, before, after, hnames, hbefore⟩ := List.find?_eq_some_iff_append.mp h
    exact .inr ⟨before, changed, after, hnames, by simpa using hbefore, by simpa using hchanged⟩

/-- Names that are given back are asked about in order, and then the search goes on. -/
theorem firstChanged?_append [LawfulMonad m] (note : String → m Unit)
    (h : ∀ name ∈ before, reprint name = some name) (rest : List String) :
    firstChanged? (noting note reprint) (before ++ rest) =
      (do forM before note; firstChanged? (noting note reprint) rest) := by
  induction before with
  | nil => rw [List.nil_append, List.forM_nil, pure_bind]
  | cons name before ih =>
    have hname := h name List.mem_cons_self
    have hrest := ih fun x hx => h x (List.mem_cons_of_mem name hx)
    simp [firstChanged?, noting, hname, hrest]

theorem firstChanged?_kept [LawfulMonad m] (note : String → m Unit)
    (h : ∀ name ∈ names, reprint name = some name) :
    firstChanged? (noting note reprint) names = (do forM names note; return none) := by
  simpa [firstChanged?] using firstChanged?_append note h []

theorem firstChanged?_changed [LawfulMonad m] (note : String → m Unit)
    (h : ∀ name ∈ before, reprint name = some name) (hchanged : reprint changed ≠ some changed) :
    firstChanged? (noting note reprint) (before ++ changed :: after) =
      (do forM (before ++ [changed]) note; return some changed) := by
  rw [firstChanged?_append note h]
  simp [firstChanged?, noting, hchanged]

/-- Nothing is asked about a type that is no enumeration by its constructors alone. -/
theorem shape_of_not_nullary (ask : String → m (Option String)) (h : ¬ d.IsNullary) :
    d.shape ask = return .uninterpreted (d.name ++ " is not a finite non-empty enumeration") := by
  rw [shape, if_pos]
  by_contra hnot
  refine h ⟨fun hnil => hnot (.inl hnil), fun c hc => ?_⟩
  by_contra hfields
  exact hnot (.inr (List.any_eq_true.mpr ⟨c, hc, decide_eq_true hfields⟩))

theorem shape_of_nullary (ask : String → m (Option String)) (h : d.IsNullary) :
    d.shape ask = (do
      match ← firstChanged? ask d.constructorNames with
      | some changed =>
        return .uninterpreted (d.name ++ ": constructor " ++ changed ++ " is not nullary")
      | none => return .enumerated d.constructorNames) := by
  rw [shape, if_neg]
  · rfl
  · rintro (hnil | hfields)
    · exact h.1 hnil
    · obtain ⟨c, hc, hfields⟩ := List.any_eq_true.mp hfields
      exact of_decide_eq_true hfields (h.2 c hc)

theorem shape_of_kept [LawfulMonad m] (note : String → m Unit) (h : d.IsNullary)
    (hkept : ∀ name ∈ d.constructorNames, reprint name = some name) :
    d.shape (noting note reprint) =
      (do forM d.constructorNames note; return .enumerated d.constructorNames) := by
  rw [shape_of_nullary _ h, firstChanged?_kept note hkept]
  simp

theorem shape_of_changed [LawfulMonad m] (note : String → m Unit) (h : d.IsNullary)
    (hnames : d.constructorNames = before ++ changed :: after)
    (hkept : ∀ name ∈ before, reprint name = some name)
    (hchanged : reprint changed ≠ some changed) :
    d.shape (noting note reprint) = (do
      forM (before ++ [changed]) note
      return .uninterpreted (d.name ++ ": constructor " ++ changed ++ " is not nullary")) := by
  rw [shape_of_nullary _ h, hnames, firstChanged?_changed note hkept hchanged]
  simp

/-- The shape and the texts asked about are the same whatever is done for each of these, and the
shape is an enumeration just if all constructors are nullary and given back. -/
theorem exists_shape (d : Description) (reprint : String → Option String) :
    ∃ (shape : Shape) (texts : List String),
      (∀ (m : Type → Type) [Monad m] [LawfulMonad m] (note : String → m Unit),
        d.shape (noting note reprint) = (do forM texts note; return shape)) ∧
      ∀ names, shape = .enumerated names ↔
        names = d.constructorNames ∧ d.IsNullary ∧ ∀ name ∈ names, reprint name = some name := by
  -- What is asked ends in one of three ways: before it starts, after all names, or at the first
  -- that is not given back.
  by_cases h : d.IsNullary
  · obtain hkept | ⟨before, changed, after, hnames, hkept, hchanged⟩ :=
      all_kept_or_first_changed reprint d.constructorNames
    · refine ⟨_, _, fun m _ _ note => shape_of_kept note h hkept, fun names => ?_⟩
      rw [Shape.enumerated.injEq]
      constructor
      · rintro rfl
        exact ⟨rfl, h, hkept⟩
      · rintro ⟨rfl, -⟩
        rfl
    · refine ⟨_, _, fun m _ _ note => shape_of_changed note h hnames hkept hchanged, ?_⟩
      refine fun names => ⟨fun hshape => (by cases hshape), ?_⟩
      rintro ⟨rfl, -, hall⟩
      exact (hchanged (hall changed (by simp [hnames]))).elim
  · refine ⟨.uninterpreted (d.name ++ " is not a finite non-empty enumeration"), [],
      fun m _ _ note => ?_, fun names => ⟨fun hshape => (by cases hshape), ?_⟩⟩
    · rw [shape_of_not_nullary _ h, List.forM_nil, pure_bind]
    · rintro ⟨-, hnullary, -⟩
      exact (h hnullary).elim

theorem build_of_unreserved (ask : String → m (Option String)) (h : reservedStart? d.name = none) :
    d.build ask = (do
      let shape ← d.shape ask
      return ⟨.ok (.user ⟨d.name, shape, h⟩), [d.finding shape]⟩) := by
  unfold build
  split
  · rename_i first hfirst
    cases h.symm.trans hfirst
  · rfl

/-- Adds a text to the record. -/
def record (text : String) : StateM (List String) Unit := modify (· ++ [text])

theorem run_forM_record (names said : List String) :
    (forM names record).run said = ((), said ++ names) := by
  induction names generalizing said with
  | nil =>
    rw [List.append_nil]
    rfl
  | cons name rest ih =>
    rw [List.forM_cons, StateT.run_bind]
    change (forM rest record).run (said ++ [name]) = _
    rw [ih, List.append_assoc, List.singleton_append]

theorem outcome_of_reserved (reprint : String → Option String)
    (h : reservedStart? d.name = some start) :
    d.outcome reprint = .error (.reservedName d.name start) ∧ d.asked reprint = [] := by
  rw [outcome, asked, build_of_reserved _ h]
  exact ⟨rfl, rfl⟩

theorem outcome_of_shape {shape : Shape} (h : reservedStart? d.name = none)
    (hshape : d.shape (noting record reprint) = (do forM names record; return shape)) :
    d.outcome reprint = .ok (.user ⟨d.name, shape, h⟩) ∧ d.asked reprint = names := by
  have hrun : (d.build (recording reprint)).run [] =
      (⟨.ok (.user ⟨d.name, shape, h⟩), [d.finding shape]⟩, names) := by
    change (d.build (noting record reprint)).run [] = _
    rw [build_of_unreserved _ h, hshape, bind_assoc, StateT.run_bind, run_forM_record]
    rfl
  rw [outcome, asked, hrun]
  exact ⟨rfl, rfl⟩

/-- Keeping a record changes nothing about the kind. -/
theorem outcome_eq_build (d : Description) (reprint : String → Option String) :
    d.outcome reprint = (d.build (m := Id) reprint).result := by
  cases h : reservedStart? d.name with
  | some start =>
    rw [(outcome_of_reserved reprint h).1, build_of_reserved _ h]
    rfl
  | none =>
    obtain ⟨shape, texts, hshape, -⟩ := d.exists_shape reprint
    have hplain : d.shape (m := Id) reprint = shape := hshape Id fun _ => ()
    rw [(outcome_of_shape h (hshape _ record)).1, build_of_unreserved _ h, hplain]
    rfl

theorem outcome_of_not_nullary (reprint : String → Option String)
    (h : reservedStart? d.name = none) (hfields : ¬ d.IsNullary) :
    d.outcome reprint = .ok (.user ⟨d.name,
      .uninterpreted (d.name ++ " is not a finite non-empty enumeration"), h⟩) ∧
    d.asked reprint = [] := by
  apply outcome_of_shape h
  rw [shape_of_not_nullary _ hfields]
  rfl

theorem outcome_of_kept (h : reservedStart? d.name = none) (hnullary : d.IsNullary)
    (hkept : ∀ name ∈ d.constructorNames, reprint name = some name) :
    d.outcome reprint = .ok (.user ⟨d.name, .enumerated d.constructorNames, h⟩) ∧
    d.asked reprint = d.constructorNames :=
  outcome_of_shape h (shape_of_kept record hnullary hkept)

theorem outcome_of_changed (h : reservedStart? d.name = none) (hnullary : d.IsNullary)
    (hnames : d.constructorNames = before ++ changed :: after)
    (hkept : ∀ name ∈ before, reprint name = some name)
    (hchanged : reprint changed ≠ some changed) :
    d.outcome reprint = .ok (.user ⟨d.name,
      .uninterpreted (d.name ++ ": constructor " ++ changed ++ " is not nullary"), h⟩) ∧
    d.asked reprint = before ++ [changed] :=
  outcome_of_shape h (shape_of_changed record hnullary hnames hkept hchanged)

/-- A name that is not reserved is given to a user sort, whose shape is found from the answers. -/
theorem exists_sort (reprint : String → Option String) (h : reservedStart? d.name = none) :
    ∃ sort, d.outcome reprint = .ok (.user sort) ∧ sort.name = d.name ∧
      ∀ names, sort.shape = .enumerated names ↔
        names = d.constructorNames ∧ d.IsNullary ∧ ∀ name ∈ names, reprint name = some name := by
  obtain ⟨shape, texts, hshape, henumerated⟩ := d.exists_shape reprint
  exact ⟨⟨d.name, shape, h⟩, (outcome_of_shape h (hshape _ record)).1, rfl, henumerated⟩

theorem outcome_eq_error_iff (reprint : String → Option String) :
    (∃ fault, d.outcome reprint = .error fault) ↔
      ∃ start ∈ reservedStarts, start.toList <+: d.name.toList := by
  cases h : reservedStart? d.name with
  | none =>
    obtain ⟨sort, hsort, -⟩ := exists_sort reprint h
    constructor
    · rintro ⟨fault, hfault⟩
      cases hsort.symm.trans hfault
    · rintro ⟨start, hmem, hstart⟩
      exact (reservedStart?_eq_none.mp h start hmem hstart).elim
  | some start =>
    obtain ⟨before, after, htable, -, hstart⟩ := reservedStart?_eq_some_iff.mp h
    have hmem : start ∈ reservedStarts := by simp [htable]
    exact iff_of_true ⟨_, (outcome_of_reserved reprint h).1⟩ ⟨start, hmem, hstart⟩

/-- A type is refused just for a reserved name, with the first start in the table that the name has.
Any other type's kind is a user sort of its name: an enumeration of its constructors if all of them
are nullary and given back as they are, and otherwise uninterpreted, for the fields or for the first
constructor that is not given back. Constructors are asked about only if all are nullary, each once
and in order, and none after the first that is not given back. -/
theorem build_decides (d : Description) (reprint : String → Option String) :
    ((∃ fault, d.outcome reprint = .error fault) ↔
      ∃ start ∈ reservedStarts, start.toList <+: d.name.toList) ∧
    (∀ before start after, reservedStarts = before ++ start :: after →
      (∀ s ∈ before, ¬ s.toList <+: d.name.toList) → start.toList <+: d.name.toList →
      d.outcome reprint = .error (.reservedName d.name start) ∧
      (Fault.reservedName d.name start).message = "construction error: user sort name " ++ d.name ++
        " collides with the reserved sort name prefix " ++ start ∧
      d.asked reprint = []) ∧
    ((∀ start ∈ reservedStarts, ¬ start.toList <+: d.name.toList) →
      ∃ sort, d.outcome reprint = .ok (.user sort) ∧ sort.name = d.name ∧
        (∀ names, sort.shape = .enumerated names ↔
          names = d.constructorNames ∧ d.IsNullary ∧ ∀ name ∈ names, reprint name = some name) ∧
        (¬ d.IsNullary →
          sort.shape = .uninterpreted (d.name ++ " is not a finite non-empty enumeration") ∧
          d.asked reprint = []) ∧
        (d.IsNullary → (∀ name ∈ d.constructorNames, reprint name = some name) →
          d.asked reprint = d.constructorNames) ∧
        ∀ before changed after, d.IsNullary → d.constructorNames = before ++ changed :: after →
          (∀ name ∈ before, reprint name = some name) → reprint changed ≠ some changed →
          sort.shape =
            .uninterpreted (d.name ++ ": constructor " ++ changed ++ " is not nullary") ∧
          d.asked reprint = before ++ [changed]) := by
  refine ⟨outcome_eq_error_iff reprint, ?_, ?_⟩
  · intro before start after htable hbefore hstart
    have hfirst := reservedStart?_eq_some_iff.mpr ⟨before, after, htable, hbefore, hstart⟩
    obtain ⟨hout, hasked⟩ := outcome_of_reserved reprint hfirst
    exact ⟨hout, rfl, hasked⟩
  · intro hfree
    have hnone := reservedStart?_eq_none.mpr hfree
    obtain ⟨sort, hsort, hname, henumerated⟩ := exists_sort reprint hnone
    refine ⟨sort, hsort, hname, henumerated, ?_, ?_, ?_⟩
    · intro hfields
      obtain ⟨hout, hasked⟩ := outcome_of_not_nullary reprint hnone hfields
      cases hsort.symm.trans hout
      exact ⟨rfl, hasked⟩
    · intro hnullary hkept
      exact (outcome_of_kept hnone hnullary hkept).2
    · intro before changed after hnullary hnames hkept hchanged
      obtain ⟨hout, hasked⟩ := outcome_of_changed hnone hnullary hnames hkept hchanged
      cases hsort.symm.trans hout
      exact ⟨rfl, hasked⟩

/-- A name with two reserved starts, and a constructor given on both sides of the first one that is
not given back. -/
theorem build_decides_first_change :
    (⟨"SIntegers", [⟨"A", 0⟩]⟩ : Description).outcome some =
      .error (.reservedName "SIntegers" "SInt") ∧
    ∃ (d : Description) (reprint : String → Option String) (sort : UserSort),
      d = ⟨"Sx", [⟨"A", 0⟩, ⟨"B", 0⟩, ⟨"A", 0⟩]⟩ ∧
      reprint = (fun text => if text = "B" then none else some text) ∧
      d.outcome reprint = .ok (.user sort) ∧
      sort.shape = .uninterpreted "Sx: constructor B is not nullary" ∧
      d.asked reprint = ["A", "B"] := by
  constructor
  · have htable : reservedStarts = ["SBool", "SWord"] ++ "SInt" :: ["SInteger", "SReal", "SFloat",
        "SDouble", "SString", "SChar", "["] := rfl
    have hrefused := (build_decides ⟨"SIntegers", [⟨"A", 0⟩]⟩ some).2.1
    exact (hrefused _ _ _ htable (by decide) (by decide)).1
  · have hfree : ∀ start ∈ reservedStarts, ¬ start.toList <+: "Sx".toList := by decide
    obtain ⟨-, -, huser⟩ := build_decides ⟨"Sx", [⟨"A", 0⟩, ⟨"B", 0⟩, ⟨"A", 0⟩]⟩
      fun text => if text = "B" then none else some text
    obtain ⟨sort, hsort, -, -, -, -, hchanged⟩ := huser hfree
    refine ⟨_, _, sort, rfl, rfl, hsort, hchanged ["A"] "B" ["A"] ?_ rfl ?_ ?_⟩
    · simp [IsNullary]
    · simp
    · simp

end Description
end SolverValues
