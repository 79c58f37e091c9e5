import LexerGen.Proofs.CommandLine.Program
import LexerGen.Proofs.Definitions

/-!
# Printing prenex forms and compiling agree

In prenex mode the program goes through the definitions one by one. It prints the form of each
pattern and stops at the first that cannot be read (`printPrenex_append`). In the other modes it
compiles the whole list before it prints anything. The two agree all the same (`modes_agree`). Both
fail just if some pattern cannot be read, and they blame the first of these
(`FaultAfter.run_eq_of_prenex`, `run_eq_of_fault`). If there is none, the forms that are printed
hold all that the lexer is made of (`lexer_of_forms`), since they are read as the trees of the
patterns.

This is said first of options and their outcome. What a report shows of it follows, since a report
keeps all of an outcome.
-/

namespace LexerGen

open Text

variable {tokens before rest : List (String × String)} {forms : List (String × List Char)}
  {rules : List (String × Regex)} {lexer : Lexer} {name pattern : String} {cause : PatternError}
  {e : LexerError}

namespace CommandLine

/-! ### Prenex forms -/

/-- **A definition and its prenex form**: the same name, and the prenex text of the pattern. -/
def PrintsAs (token : String × String) (form : String × List Char) : Prop :=
  form.1 = token.1 ∧ Pattern.toPrenex token.2.toList = .ok form.2

/-- **A prenex form and the automaton that it is read as.** -/
def BuildsAs (form : String × List Char) (n : Nfa) : Prop := Nfa.ofPrenex form.2 = .ok n

/-- The line for a prenex form. -/
def prenexLine (form : String × List Char) : List Char :=
  form.1.toList ++ ['\t'] ++ form.2 ++ ['\n']

/-- The prenex form of a rule. -/
def prenexForm (rule : String × Regex) : String × List Char := (rule.1, Prenex.render rule.2)

/-- Definitions that can be read have the forms of their rules. -/
theorem printsAs_of_readsAs (h : List.Forall₂ ReadsAs tokens rules) :
    List.Forall₂ PrintsAs tokens (rules.map prenexForm) := by
  rw [List.forall₂_map_right_iff]
  refine h.imp fun token rule hrule => ?_
  obtain ⟨hname, hparse⟩ := hrule
  exact ⟨hname, by rw [Pattern.toPrenex, hparse]; rfl⟩

/-- The forms of rules are read as the automata of their trees. -/
theorem buildsAs_of_readsAs (h : List.Forall₂ ReadsAs tokens rules) :
    List.Forall₂ BuildsAs (rules.map prenexForm) (rules.map fun rule => Nfa.ofRegex rule.2) := by
  induction h with
  | nil => exact .nil
  | @cons token rule _ _ hrule _ ih =>
    obtain ⟨-, hparse⟩ := hrule
    -- a tree that was read is written as it stands
    have hread : Prenex.read (Prenex.render rule.2) = .ok rule.2 := by
      rw [Prenex.read_render, Regex.normalize_of_writable (Pattern.writable_parse hparse)]
    refine .cons ?_ ih
    rw [BuildsAs, prenexForm, Nfa.ofPrenex, hread]
    rfl

/-- **The forms hold all that the lexer is made of.** Those of a list that compiles are read as
automata, and these, tagged by name and place and joined in order, are the automaton of the
lexer. -/
theorem lexer_of_forms (h : Lexer.compile tokens = .ok lexer) :
    ∃ forms ns, List.Forall₂ PrintsAs tokens forms ∧ List.Forall₂ BuildsAs forms ns ∧
      Nfa.merge ((forms.zip ns).mapIdx fun rank part => part.2.tagFinal ⟨part.1.1, rank⟩) =
        some lexer.nfa := by
  obtain ⟨rules, hrules, hmerge, -⟩ := Lexer.compile_eq_ok_iff.1 h
  refine ⟨_, _, printsAs_of_readsAs hrules, buildsAs_of_readsAs hrules, ?_⟩
  -- the forms and the automata are those of the same rules, at the same places
  rw [← hmerge, map_snd_parts, List.zip_map', List.mapIdx_eq_zipIdx_map, List.zipIdx_map,
    List.mapIdx_eq_zipIdx_map, List.map_map]
  simp only [Nat.zero_add, Function.comp_def, Prod.map, prenexForm, id_eq]

/-! ### What is printed -/

/-- **Prenex mode prints line by line**, as long as patterns can be read. -/
theorem printPrenex_append (h : List.Forall₂ PrintsAs before forms) :
    printPrenex (before ++ rest) =
      ⟨forms.flatMap prenexLine ++ (printPrenex rest).output, (printPrenex rest).failure⟩ := by
  induction h with
  | nil => rfl
  | @cons token form before forms hform _ ih =>
    obtain ⟨name, pattern⟩ := token
    obtain ⟨hname, hprenex⟩ := hform
    -- a line comes first, and a failure is that of the rest
    rw [List.cons_append, printPrenex, hprenex]
    show Outcome.mk (_ ++ (printPrenex (before ++ rest)).output)
      (printPrenex (before ++ rest)).failure = _
    rw [ih, List.flatMap_cons, prenexLine, hname, List.append_assoc _ (forms.flatMap _)]

theorem printPrenex_eq (h : List.Forall₂ PrintsAs tokens forms) :
    printPrenex tokens = ⟨forms.flatMap prenexLine, none⟩ := by
  have happend : printPrenex (tokens ++ []) = _ := printPrenex_append h
  rwa [List.append_nil, printPrenex, List.append_nil] at happend

/-- **The first pattern that cannot be read**, with the name of its definition, the error, and the
forms of the definitions before it. -/
def FaultAfter (forms : List (String × List Char)) (tokens : List (String × String))
    (name : String) (cause : PatternError) : Prop :=
  ∃ before pattern after, tokens = before ++ (name, pattern) :: after ∧
    List.Forall₂ PrintsAs before forms ∧ Pattern.parse pattern.toList = .error cause

/-- **A list that does not compile has a fault**, unless it is empty. -/
theorem exists_faultAfter (h : Lexer.compile tokens = .error e) (hne : tokens ≠ []) :
    ∃ forms name cause, FaultAfter forms tokens name cause ∧ e = .badPattern name cause := by
  rcases Lexer.compile_eq_error_iff.1 h with ⟨name, cause, hfault, he⟩ | ⟨hnil, -⟩
  · -- the definitions before the fault can be read, so they have rules, and these have forms
    obtain ⟨before, pattern, after, htokens, hbefore, hcause⟩ := hfault
    obtain ⟨rules, hrules⟩ := exists_rules_iff.2 hbefore
    exact ⟨rules.map prenexForm, name, cause,
      ⟨before, pattern, after, htokens, printsAs_of_readsAs hrules, hcause⟩, he⟩
  · exact absurd hnil hne

/-! ### What the modes lead to -/

variable {args : List String} {read : Source → Except ReadError String} {o : Options}

/-- **Prenex mode stops at the fault**, after the lines before it. -/
theorem FaultAfter.run_eq_of_prenex (h : FaultAfter forms o.tokens name cause)
    (hprenex : o.prenex = true) : o.run read = ⟨forms.flatMap prenexLine,
      some ⟨"Invalid pattern for token " ++ quotedString name, [cause.message]⟩⟩ := by
  obtain ⟨before, pattern, after, htokens, hforms, hcause⟩ := h
  have hpattern : Pattern.toPrenex pattern.toList = .error cause := by
    rw [Pattern.toPrenex, hcause]
    rfl
  rw [Options.run, Options.task, if_pos hprenex, htokens, printPrenex_append hforms, printPrenex,
    hpattern, List.append_nil]
  rfl

/-- **The other modes fail at once** where the list does not compile. They name the same definition
and the same cause. -/
theorem run_eq_of_fault (h : Lexer.compile o.tokens = .error (.badPattern name cause))
    (hprenex : o.prenex = false) : o.run read = ⟨[], some ⟨"Error building lexer",
      ["Invalid pattern for token " ++ quotedString name, cause.message]⟩⟩ := by
  rw [Options.run, Options.task, hprenex, h]
  rfl

/-- Prenex mode prints all lines if all patterns can be read. -/
theorem run_eq_of_forms (h : List.Forall₂ PrintsAs o.tokens forms) (hprenex : o.prenex = true) :
    o.run read = ⟨forms.flatMap prenexLine, none⟩ := by
  rw [Options.run, Options.task, if_pos hprenex, printPrenex_eq h]

/-- Drawing succeeds if the list compiles. -/
theorem exists_run_eq_of_drawing (h : Lexer.compile o.tokens = .ok lexer)
    (hprenex : o.prenex = false) (hdot : o.dot.isSome = true) :
    ∃ output, o.run read = ⟨output, none⟩ := by
  obtain ⟨drawing, hdrawing⟩ := Option.isSome_iff_exists.1 hdot
  rw [Options.run, Options.task, hprenex, h, hdrawing]
  cases drawing with
  | nfa => exact ⟨_, rfl⟩
  | dfa => exact ⟨_, rfl⟩

/-- **Prenex mode and drawing fail together**, namely if the list does not compile. -/
theorem failure_eq_none_iff (hne : o.tokens ≠ [])
    (hmode : o.prenex = true ∨ o.dot.isSome = true) :
    (o.run read).failure = none ↔ ∃ lexer, Lexer.compile o.tokens = .ok lexer := by
  cases hcompile : Lexer.compile o.tokens with
  | error e =>
    obtain ⟨forms, name, cause, hfault, rfl⟩ := exists_faultAfter hcompile hne
    refine iff_of_false (fun hnone => ?_) nofun
    -- each kind of mode has a failure to report
    cases hprenex : o.prenex with
    | true => cases (hfault.run_eq_of_prenex hprenex) ▸ hnone
    | false => cases (run_eq_of_fault hcompile hprenex) ▸ hnone
  | ok lexer =>
    refine iff_of_true ?_ ⟨lexer, rfl⟩
    cases hprenex : o.prenex with
    | true =>
      obtain ⟨forms, -, hforms, -⟩ := lexer_of_forms hcompile
      rw [run_eq_of_forms hforms hprenex]
    | false =>
      have hdot : o.dot.isSome = true := by simpa [hprenex] using hmode
      obtain ⟨output, hrun⟩ := exists_run_eq_of_drawing hcompile hprenex hdot
      rw [hrun]

/-! ### The modes agree -/

/-- **Prenex mode and the other modes agree.** Prenex mode ends without an error just if the list of
definitions compiles, and so does drawing. If it does not compile, all of them blame the first
definition whose pattern cannot be read, with the error of reading it; prenex mode has printed the
lines of the definitions before it by then, and the others have printed nothing. If it compiles,
prenex mode prints the lines of all, and the forms in them are read as automata that, tagged by name
and place and joined in order, are the automaton of the lexer. -/
theorem modes_agree (hne : tokens ≠ []) :
    (∀ args read o logged, Started args o logged → o.tokens = tokens →
      o.prenex = true ∨ o.dot.isSome = true →
      ((run args read).code = 0 ↔ ∃ lexer, Lexer.compile tokens = .ok lexer)) ∧
    (∀ e, Lexer.compile tokens = .error e →
      ∃ forms name cause, FaultAfter forms tokens name cause ∧ e = .badPattern name cause ∧
        ∀ args read o logged, Started args o logged → o.tokens = tokens →
          (run args read).code = 1 ∧
          (o.prenex = true →
            (o.run read).failure =
              some ⟨"Invalid pattern for token " ++ quotedString name, [cause.message]⟩ ∧
            (run args read).output.toList = forms.flatMap prenexLine ∧
            (run args read).error = if logged then
              some ("Invalid pattern for token " ++ quotedString name ++
                "\n\nCaused by:\n    " ++ cause.message) else none) ∧
          (o.prenex = false →
            (o.run read).failure = some ⟨"Error building lexer",
              ["Invalid pattern for token " ++ quotedString name, cause.message]⟩ ∧
            (run args read).output.toList = [] ∧
            (run args read).error = if logged then
              some ("Error building lexer" ++ "\n\nCaused by:\n    0: " ++
                ("Invalid pattern for token " ++ quotedString name) ++
                "\n    1: " ++ cause.message) else none)) ∧
    ∀ lexer, Lexer.compile tokens = .ok lexer →
      ∃ forms ns, List.Forall₂ PrintsAs tokens forms ∧ List.Forall₂ BuildsAs forms ns ∧
        Nfa.merge ((forms.zip ns).mapIdx fun rank part => part.2.tagFinal ⟨part.1.1, rank⟩) =
          some lexer.nfa ∧
        ∀ args read o logged, Started args o logged → o.tokens = tokens → o.prenex = true →
          (run args read).code = 0 ∧
          (run args read).output.toList = forms.flatMap prenexLine ∧
          (run args read).error = none := by
  refine ⟨?_, ?_, ?_⟩
  · rintro args read o logged hstarted rfl hmode
    rw [hstarted.code_eq_zero_iff, failure_eq_none_iff hne hmode]
  · intro e hcompile
    obtain ⟨forms, name, cause, hfault, rfl⟩ := exists_faultAfter hcompile hne
    refine ⟨forms, name, cause, hfault, rfl, ?_⟩
    rintro args read o logged hstarted rfl
    -- each part of the report is read off the outcome, whichever mode it is
    rw [hstarted.code_eq, hstarted.output_eq, hstarted.error_eq]
    cases hprenex : o.prenex with
    | true =>
      rw [hfault.run_eq_of_prenex hprenex]
      refine ⟨rfl, fun _ => ⟨rfl, rfl, ?_⟩, nofun⟩
      rw [Option.map_some, text_of_cause]
    | false =>
      rw [run_eq_of_fault hcompile hprenex]
      refine ⟨rfl, nofun, fun _ => ⟨rfl, rfl, ?_⟩⟩
      rw [Option.map_some, text_of_causes]
  · intro lexer hcompile
    obtain ⟨forms, ns, hforms, hns, hmerge⟩ := lexer_of_forms hcompile
    refine ⟨forms, ns, hforms, hns, hmerge, ?_⟩
    rintro args read o logged hstarted rfl hprenex
    rw [hstarted.code_eq, hstarted.output_eq, hstarted.error_eq, run_eq_of_forms hforms hprenex]
    exact ⟨rfl, rfl, ite_self none⟩

/-- One definition compiles. If a second one is added whose pattern cannot be read, prenex mode
still prints the line of the first. -/
theorem modes_agree_second :
    run ["-t=A=a", "--prenex"] (fun _ => .ok "") = ⟨0, none, "A\ta\n"⟩ ∧
    run ["-t=A=a", "-t=B=(", "--prenex"] (fun _ => .ok "") =
      ⟨1, some ("Invalid pattern for token \"B\"" ++ "\n\nCaused by:\n    " ++
        "Unclosed parenthesis at 0"), "A\ta\n"⟩ ∧
    run ["-t=A=a", "-t=B=(", "--dot", "nfa"] (fun _ => .ok "") =
      ⟨1, some ("Error building lexer" ++ "\n\nCaused by:\n    0: " ++
        "Invalid pattern for token \"B\"" ++ "\n    1: " ++ "Unclosed parenthesis at 0"), ""⟩ := by
  have hletter : Pattern.parse "a".toList = .ok (.lit 'a') := by cbv
  have hform : Pattern.toPrenex "a".toList = .ok ['a'] := by cbv
  have hcompile : Lexer.compile [("A", "a"), ("B", "(")] =
      .error (.badPattern "B" (.unclosedGroup 0)) := by cbv
  have hforms : ∀ forms, List.Forall₂ PrintsAs [("A", "a")] forms → forms = [("A", ['a'])] := by
    intro forms h
    obtain ⟨⟨_, text⟩, _, ⟨rfl, htext⟩, hrest, rfl⟩ := List.forall₂_cons_left_iff.1 h
    cases hrest
    cases hform.symm.trans htext
    rfl
  -- only the first definition comes before the one that is blamed
  have hbefore : ∀ before pattern after,
      [("A", "a"), ("B", "(")] = before ++ ("B", pattern) :: after → before = [("A", "a")] := by
    intro before pattern after h
    rcases before with _ | ⟨token, _ | ⟨token', before⟩⟩ <;> simp_all
  have hone : [("A", "a")] ≠ [] := List.cons_ne_nil _ _
  have htwo : [("A", "a"), ("B", "(")] ≠ [] := List.cons_ne_nil _ _
  have hrules : List.Forall₂ ReadsAs [("A", "a")] [("A", .lit 'a')] := .cons ⟨rfl, hletter⟩ .nil
  obtain ⟨lexer, hlexer⟩ := Lexer.exists_compile hrules hone
  obtain ⟨hprenexOne, -⟩ := started_of_writable hone (by simp [Writable])
  obtain ⟨hprenexTwo, hnfa, -⟩ := started_of_writable htwo (by simp [Writable])
  obtain ⟨-, -, hok⟩ := modes_agree hone
  obtain ⟨-, hfault, -⟩ := modes_agree htwo
  obtain ⟨_, -, hprinted, -, -, hruns⟩ := hok lexer hlexer
  obtain rfl := hforms _ hprinted
  obtain ⟨_, name, cause, ⟨before, pattern, after, htokens, hprinted, -⟩, he, hruns'⟩ :=
    hfault _ hcompile
  cases he
  obtain rfl := hbefore before pattern after htokens
  obtain rfl := hforms _ hprinted
  obtain ⟨hcode, houtput, herror⟩ := hruns _ (fun _ => .ok "") _ _ hprenexOne rfl rfl
  obtain ⟨hcodeTwo, hprenex, -⟩ := hruns' _ (fun _ => .ok "") _ _ hprenexTwo rfl
  obtain ⟨-, houtputTwo, herrorTwo⟩ := hprenex rfl
  obtain ⟨hcodeNfa, -, hother⟩ := hruns' _ (fun _ => .ok "") _ _ hnfa rfl
  obtain ⟨-, houtputNfa, herrorNfa⟩ := hother rfl
  exact ⟨Report.eq_of_shown hcode houtput herror,
    Report.eq_of_shown hcodeTwo houtputTwo herrorTwo,
    Report.eq_of_shown hcodeNfa houtputNfa herrorNfa⟩

end CommandLine

end LexerGen
