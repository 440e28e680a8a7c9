import SolverValues.Proofs.Extended.Leaves
import SolverValues.Proofs.Sampling.Range
import SolverValues.Proofs.Session.Run

/-!
The words of a session. What making, mapping and sampling keep true of words is true of every word
that a session answers with or keeps, and of every word that its terms make on the way.
-/
namespace SolverValues

/-- A property of words that every operation on words keeps. -/
structure Word.Maintained (P : Word → Prop) : Prop where
  ofBool : ∀ b, P (.ofBool b)
  ofInt : ∀ {k n w}, Word.ofInt k n = .ok w → P w
  normalize : ∀ {w}, P w → P w.normalize
  map : ∀ {h w mapped}, P w → w.map h = .ok mapped → P mapped
  map₂ : ∀ {h a b mapped}, P a → P b → (a.map₂ h b).result = .ok mapped → P mapped
  sampleWord : ∀ config k, Yields (Sampling.sampleWord config k) P

theorem Word.maintained_isNormal : Word.Maintained fun w => w.isNormal where
  ofBool b := isNormal_of_normalize_eq (by cases b <;> rfl)
  ofInt h := by
    obtain ⟨c, _, rfl⟩ := ofInt_eq_ok h
    exact isNormal_make _ c
  normalize {w} _ := isNormal_make w.kind w.value
  map _ h := by
    obtain ⟨c, _, _, rfl⟩ := map_eq_ok h
    exact isNormal_make _ c
  map₂ _ _ h := by
    obtain ⟨c, _, _, rfl⟩ := map₂_eq_ok h
    exact isNormal_make _ c
  sampleWord config k := (Sampling.yields_sampleWord config k).mono fun _ h => h.2.1

theorem Word.maintained_suited : Word.Maintained Word.Suited where
  ofBool _ := rfl
  ofInt h := by
    obtain ⟨c, hc, rfl⟩ := ofInt_eq_ok h
    exact suited_make hc
  normalize := suited_normalize
  map hw h := by
    obtain ⟨c, hrank, hlist, rfl⟩ := map_eq_ok h
    exact suited_of_same_variant hw hrank hlist
  map₂ ha _ h := by
    obtain ⟨c, hrank, hlist, rfl⟩ := map₂_eq_ok h
    exact suited_of_same_variant ha hrank hlist
  sampleWord config k := (Sampling.yields_sampleWord config k).mono fun _ h => h.2.2

namespace Session

variable {β : Type} {P : Word → Prop} {kept : List (Option Word)} {s : State}
  {commands : List (Command β)}

/-- No part of the term takes a constant as it is. -/
def WordTerm.rawFree : WordTerm → Bool
  | .raw .. => false
  | .normalized word => word.rawFree
  | _ => true

/-- Every constant that the term takes for a kind has the variant of that kind's family. -/
def WordTerm.Suited : WordTerm → Prop
  | .raw kind value | .make kind value => Yields kind.eval fun k => value.suits k
  | .normalized word => word.Suited
  | _ => True

/-- What the term takes from outside satisfies `P` as a word. -/
def WordTerm.Gives (P : Word → Prop) : WordTerm → Prop
  | .raw kind value => Yields kind.eval fun k => P ⟨k, value⟩
  | .make kind value => Yields kind.eval fun k => P (.make k value)
  | .normalized word => word.Gives P
  | _ => True

def ExtendedTerm.leaves : ExtendedTerm → List WordTerm
  | .infinity _ | .epsilon _ => []
  | .word leaf => [leaf]
  | .interval left right | .sum left right | .product left right => left.leaves ++ right.leaves

/-- The terms for words in a command. -/
def Command.terms : Command β → List WordTerm
  | .word term | .lift _ term | .map _ term => [term]
  | .lift₂ _ left right | .map₂ _ left right => [left, right]
  | .words terms => terms
  | .extended term => term.leaves
  | .extendeds terms => terms.flatMap (·.leaves)
  | _ => []

/-- The words in an answer, kept or not. -/
def Answer.made : Answer β → List Word
  | .word w => [w]
  | .words ws => ws
  | .extended value => value.words
  | .extendeds values => values.flatMap (·.words)
  | .sampled _ (.ok w) _ _ => [w]
  | _ => []

/-- Does the answer say that its call failed? -/
def Answer.isFault : Answer β → Bool
  | .built (.error _) _ | .sampled _ (.error _) _ _ => true
  | _ => false

def Report.made (report : Report β) : List Word :=
  match report.answer with
  | .ok answer => answer.made
  | .error _ => []

/-- Is there no answer, or one that says that its call failed? -/
def Report.isFailure (report : Report β) : Bool :=
  match report.answer with
  | .ok answer => answer.isFault
  | .error _ => true

/-- Every word that the state keeps for later steps satisfies `P`. -/
def State.Keeps (s : State) (P : Word → Prop) : Prop := ∀ w, some w ∈ s.kept → P w

theorem Answer.mem_made_sampled {kind : Kind} {outcome : Except Fault Word} {used : Nat}
    {keep : Bool} {w : Word} :
    w ∈ (Answer.sampled kind outcome used keep : Answer β).made ↔ outcome = .ok w := by
  cases outcome <;> simp [made, eq_comm]

theorem Answer.mem_made_of_word? {answer : Answer β} {w : Word} (h : answer.word? = some w) :
    w ∈ answer.made := by
  unfold word? at h
  split at h <;> simp_all [made]

theorem Answer.made_of_isFault {answer : Answer β} (h : answer.isFault) : answer.made = [] := by
  unfold isFault at h
  split at h <;> simp_all [made]

theorem Report.mem_made {report : Report β} {w : Word} :
    w ∈ report.made ↔ ∃ answer, report.answer = .ok answer ∧ w ∈ answer.made := by
  obtain ⟨answer | answer, lines⟩ := report <;> simp [made]

theorem Report.mem_made_of_word? {report : Report β} {w : Word} (h : report.word? = some w) :
    w ∈ report.made := by
  obtain ⟨answer | answer, lines⟩ := report
  · cases h
  · exact answer.mem_made_of_word? h

theorem Report.made_of_isFailure {report : Report β} (h : report.isFailure) :
    report.made = [] := by
  obtain ⟨answer | answer, lines⟩ := report
  · rfl
  · exact answer.made_of_isFault h

theorem yields_orFault {α : Type} {Q : α → Prop} {outcome : Except Fault α}
    (h : ∀ a, outcome = .ok a → Q a) : Yields (orFault outcome) Q := by
  cases outcome with
  | ok a => exact .pure (h a rfl)
  | error fault => exact .throw _

theorem yields_take {α : Type} (logged : Log.Logged α) :
    Yields (take logged) fun a => a = logged.result :=
  (Yields.trivial _).bind fun _ _ => .pure rfl

theorem WordTerm.gives_isNormal {term : WordTerm} (h : term.rawFree) :
    term.Gives fun w => w.isNormal := by
  induction term with
  | raw kind value => cases h
  | make kind value => exact (Yields.trivial _).mono fun k _ => Word.isNormal_make k value
  | normalized word ih => exact ih h
  | _ => trivial

theorem WordTerm.Suited.gives {term : WordTerm} (h : term.Suited) : term.Gives Word.Suited := by
  induction term with
  | raw kind value => exact h
  | make kind value => exact Yields.mono h fun _ hk => Word.suited_make hk
  | normalized word ih => exact ih h
  | _ => trivial

theorem WordTerm.yields_eval (hP : Word.Maintained P) (hkept : ∀ w, some w ∈ kept → P w)
    {term : WordTerm} (h : term.Gives P) : Yields (term.eval kept) P := by
  induction term with
  | truth value => exact .pure (hP.ofBool value)
  | raw kind value => exact Yields.bind h fun _ hk => .pure hk
  | make kind value => exact Yields.bind h fun _ hk => .pure hk
  | literal kind n => exact (Yields.trivial _).bind fun _ _ => yields_orFault fun _ => hP.ofInt
  | normalized word ih => exact (ih h).bind fun _ hw => .pure (hP.normalize hw)
  | kept step =>
    unfold eval
    split
    · rename_i w hw
      exact .pure (hkept w (List.mem_of_getElem? hw))
    · exact .throw _

theorem ExtendedTerm.yields_eval (hP : Word.Maintained P) (hkept : ∀ w, some w ∈ kept → P w)
    {term : ExtendedTerm} (h : ∀ leaf ∈ term.leaves, leaf.Gives P) :
    Yields (term.eval kept) fun value => ∀ w ∈ value.words, P w := by
  induction term with
  | infinity kind => exact (Yields.trivial _).bind fun _ _ => .pure (by simp [Extended.words])
  | epsilon kind => exact (Yields.trivial _).bind fun _ _ => .pure (by simp [Extended.words])
  | word leaf =>
    have hleaf := h leaf (by simp [leaves])
    refine (WordTerm.yields_eval hP hkept hleaf).bind fun w hw => .pure ?_
    simpa [Extended.words] using hw
  | interval left right ihl ihr | sum left right ihl ihr | product left right ihl ihr =>
    have hl := ihl fun leaf hleaf => h leaf (List.mem_append_left _ hleaf)
    have hr := ihr fun leaf hleaf => h leaf (List.mem_append_right _ hleaf)
    refine hl.bind fun a ha => hr.bind fun b hb => .pure fun w hw => ?_
    rcases List.mem_append.mp hw with hw | hw
    · exact ha w hw
    · exact hb w hw

theorem Command.yields_eval (hP : Word.Maintained P) (hs : s.Keeps P)
    {command : Command β} (h : ∀ term ∈ command.terms, term.Gives P) :
    Yields (command.eval s) fun answer => ∀ w ∈ answer.made, P w := by
  have hterm {term : WordTerm} (hmem : term ∈ command.terms) : Yields (term.eval s.kept) P :=
    WordTerm.yields_eval hP hs (h term hmem)
  cases command with
  | word term =>
    refine (hterm (by simp [terms])).bind fun w hw => .pure ?_
    simpa [Answer.made] using hw
  | words terms =>
    refine (Yields.mapM fun _ hmem => hterm hmem).bind fun ws hws => .pure ?_
    exact hws
  | map handler term =>
    refine (hterm (by simp [terms])).bind fun w hw => ?_
    refine (yields_orFault fun _ => hP.map hw).bind fun mapped hmapped => .pure ?_
    simpa [Answer.made] using hmapped
  | map₂ handler left right =>
    refine (hterm (by simp [terms])).bind fun a ha => ?_
    refine (hterm (by simp [terms])).bind fun b hb => ?_
    refine (yields_take _).bind fun outcome houtcome => ?_
    subst houtcome
    refine (yields_orFault fun _ => hP.map₂ ha hb).bind fun mapped hmapped => .pure ?_
    simpa [Answer.made] using hmapped
  | extended term => exact (ExtendedTerm.yields_eval hP hs h).bind fun _ hv => .pure hv
  | extendeds terms =>
    have hvalue : ∀ term ∈ terms,
        Yields (term.eval s.kept) fun value => ∀ w ∈ value.words, P w := by
      intro term hmem
      refine ExtendedTerm.yields_eval hP hs fun leaf hleaf => h leaf ?_
      exact List.mem_flatMap.mpr ⟨term, hmem, hleaf⟩
    refine (Yields.mapM hvalue).bind fun values hvalues => .pure fun w hw => ?_
    obtain ⟨value, hmem, hw⟩ := List.mem_flatMap.mp hw
    exact hvalues value hmem w hw
  | sample config source term keep =>
    refine (Yields.trivial _).bind fun kind _ => ?_
    have hsample := hP.sampleWord config kind (.start source)
    refine (Yields.trivial _).bind fun _ _ => .pure fun w hw => ?_
    exact hsample w (Answer.mem_made_sampled.mp hw)
  | lift₂ handler left right =>
    refine (Yields.trivial _).bind fun a _ => ?_
    refine (Yields.trivial _).bind fun b _ => ?_
    refine (Yields.trivial _).bind fun outcome _ => ?_
    exact (Yields.trivial _).bind fun _ _ => .pure (by simp [Answer.made])
  | kind | kinds | build | lift | log =>
    exact (Yields.trivial _).bind fun _ _ => .pure (by simp [Answer.made])
  | setVerbosity | getVerbosity | outside => exact .pure (by simp [Answer.made])

theorem step_keeps (hP : Word.Maintained P) (hs : s.Keeps P) {command : Command β}
    (h : ∀ term ∈ command.terms, term.Gives P) :
    (∀ w ∈ (step s command).1.made, P w) ∧ (step s command).2.Keeps P := by
  have hmade : ∀ w ∈ (step s command).1.made, P w := by
    intro w hw
    obtain ⟨answer, hanswer, hw⟩ := Report.mem_made.mp hw
    exact command.yields_eval hP hs h [] answer hanswer w hw
  refine ⟨hmade, fun w hw => ?_⟩
  rcases List.mem_append.mp hw with hw | hw
  · exact hs w hw
  · have hword : (step s command).1.word? = some w := (List.mem_singleton.mp hw).symm
    exact hmade w (Report.mem_made_of_word? hword)

theorem run_keeps (hP : Word.Maintained P) (hs : s.Keeps P)
    (h : ∀ command ∈ commands, ∀ term ∈ command.terms, term.Gives P) :
    (∀ report ∈ run s commands, ∀ w ∈ report.made, P w) ∧ (final s commands).Keeps P := by
  induction commands generalizing s with
  | nil => exact ⟨by simp [run], hs⟩
  | cons command rest ih =>
    obtain ⟨hmade, hnext⟩ := step_keeps hP hs (h command List.mem_cons_self)
    obtain ⟨hrest, hfinal⟩ := ih hnext fun c hc => h c (List.mem_cons_of_mem command hc)
    refine ⟨fun report hreport => ?_, hfinal⟩
    rcases List.mem_cons.mp hreport with rfl | hreport
    · exact hmade
    · exact hrest report hreport

/-- Where no constant is taken as it is, a session from nothing makes normal words only, in answers
and in the terms of later steps, and calls that fail make and keep none. Where constants have the
variants of their kinds' families too, so does every word. -/
theorem run_makes_valid_words (verbosity : UInt8) (commands : List (Command β))
    (hraw : ∀ command ∈ commands, ∀ term ∈ command.terms, term.rawFree) :
    let start : State := { verbosity }
    (∀ report ∈ run start commands, (∀ w ∈ report.made, w.isNormal) ∧
      (report.isFailure → report.made = [] ∧ report.word? = none)) ∧
    (final start commands).kept = (run start commands).map Report.word? ∧
    (∀ term : WordTerm, term.rawFree →
      Yields (term.eval (final start commands).kept) fun w => w.isNormal) ∧
    ((∀ command ∈ commands, ∀ term ∈ command.terms, term.Suited) →
      (∀ report ∈ run start commands, ∀ w ∈ report.made, w.Suited) ∧
      ∀ term : WordTerm, term.Suited →
        Yields (term.eval (final start commands).kept) Word.Suited) := by
  intro start
  have hstart {P : Word → Prop} : start.Keeps P := by simp [start, State.Keeps]
  have hnormal := Word.maintained_isNormal
  obtain ⟨hmade, hkept⟩ := run_keeps hnormal hstart fun command hcommand term hterm =>
    WordTerm.gives_isNormal (hraw command hcommand term hterm)
  refine ⟨?_, kept_final start commands, ?_, ?_⟩
  · intro report hreport
    refine ⟨hmade report hreport, fun hfailure => ?_⟩
    have hnone := Report.made_of_isFailure hfailure
    refine ⟨hnone, Option.eq_none_iff_forall_not_mem.mpr fun w hw => ?_⟩
    have hmem := Report.mem_made_of_word? hw
    simp [hnone] at hmem
  · intro term hterm
    exact WordTerm.yields_eval hnormal hkept (WordTerm.gives_isNormal hterm)
  · intro hsuited
    have hP := Word.maintained_suited
    obtain ⟨hmade, hkept⟩ := run_keeps hP hstart fun command hcommand term hterm =>
      (hsuited command hcommand term hterm).gives
    exact ⟨hmade, fun term hterm => WordTerm.yields_eval hP hkept hterm.gives⟩

/-- A session that makes two words, maps one, fails to map the other and samples one more. -/
theorem run_makes_valid_words_failing :
    let double : Transform :=
      { real := id
        integer := fun v => v * 2
        float := id
        double := id
        char := id
        string := id
        user := id }
    let commands : List (Command Unit) :=
      [.word (.make (.known (.int 8)) (.integer 300)),
        .word (.make (.known (.list .bool)) (.list [.integer 5])),
        .map double (.kept 0),
        .map double (.kept 1),
        .sample {} (fun _ => 7) (.known (.word 5)) true]
    (run {} commands).map Report.made =
      [[⟨.int 8, .integer 44⟩], [⟨.list .bool, .list [.integer 5]⟩], [⟨.int 8, .integer 88⟩], [],
        [⟨.word 5, .integer 7⟩]] ∧
    ∀ report ∈ run {} commands, ∀ w ∈ report.made, w.isNormal ∧ w.Suited := by
  intro double commands
  refine ⟨rfl, fun report hreport w hw => ?_⟩
  have hvalid := run_makes_valid_words Log.defaultVerbosity commands
    (by simp [commands, Command.terms, WordTerm.rawFree])
  have hsuited : ∀ command ∈ commands, ∀ term ∈ command.terms, term.Suited := by
    simp only [commands, List.mem_cons, List.not_mem_nil, or_false, forall_eq_or_imp, forall_eq,
      IsEmpty.forall_iff, implies_true, and_true, Command.terms, WordTerm.Suited]
    exact ⟨.pure rfl, .pure rfl⟩
  exact ⟨(hvalid.1 report hreport).1 w hw, (hvalid.2.2.2 hsuited).1 report hreport w hw⟩

end Session
end SolverValues
