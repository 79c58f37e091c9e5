import LexerGen.Proofs.Compile

/-!
# Which definitions make a lexer

A list of definitions is compiled one after the other, by way of prenex text, and the first whose
pattern cannot be read stops it. What comes out can be said without the detour (`compile_direct`): a
list without definitions is refused as such; the first fault in a pattern is reported with the name
of its definition and with the error that reading the pattern gives; and if there is neither, the
automaton is the one that the trees of the patterns give, each with its name and its place in the
list, joined in order.

No error is lost or added on the way. Reading the prenex text of a pattern that was read always
succeeds, so an error is always one of the pattern itself (`compileToken_eq_error_iff`); and
definitions before the first fault have trees, so a list either has a tree for each of its
definitions or a first fault (`exists_firstFault_iff`).
-/

namespace LexerGen

variable {rules : List (String × Regex)} {tokens : List (String × String)} {rank : Nat}
  {name pattern : String} {cause : PatternError} {e : LexerError} {r : Regex}

/-- **The first pattern that cannot be read**, with the name of its definition and the error. -/
def FirstFault (tokens : List (String × String)) (name : String) (cause : PatternError) : Prop :=
  ∃ before pattern after, tokens = before ++ (name, pattern) :: after ∧
    (∀ token ∈ before, ∃ r, Pattern.parse token.2.toList = .ok r) ∧
    Pattern.parse pattern.toList = .error cause

/-- Definitions have rules if their patterns can be read. -/
theorem exists_rules_iff : (∃ rules, List.Forall₂ ReadsAs tokens rules) ↔
    ∀ token ∈ tokens, ∃ r, Pattern.parse token.2.toList = .ok r := by
  induction tokens with
  | nil => exact iff_of_true ⟨[], .nil⟩ (List.forall_mem_nil _)
  | cons token tokens ih =>
    rw [List.forall_mem_cons, ← ih]
    constructor
    · rintro ⟨_, hrules⟩
      obtain ⟨rule, rules, hrule, hrest, -⟩ := List.forall₂_cons_left_iff.1 hrules
      exact ⟨⟨rule.2, hrule.2⟩, rules, hrest⟩
    · rintro ⟨⟨r, hr⟩, rules, hrules⟩
      exact ⟨(token.1, r) :: rules, .cons ⟨rfl, hr⟩ hrules⟩

/-- The tagged automata of rules, by their places in the list. -/
theorem map_snd_parts (rank : Nat) (rules : List (String × Regex)) :
    (parts rank rules).map Prod.snd =
      rules.mapIdx fun i rule => (Nfa.ofRegex rule.2).tagFinal ⟨rule.1, rank + i⟩ := by
  induction rules generalizing rank with
  | nil => rfl
  | cons rule rules ih =>
    rw [parts, List.map_cons, ih, List.mapIdx_cons]
    simp only [Nat.add_zero, Nat.add_assoc, Nat.add_comm 1]

/-- **Prenex text that was written for a pattern** is read, as the tree that the pattern
denotes. -/
theorem exists_read_of_toPrenex {text pattern : List Char}
    (h : Pattern.toPrenex pattern = .ok text) :
    ∃ r, Pattern.parse pattern = .ok r ∧ Prenex.read text = .ok r := by
  obtain ⟨r, hr, rfl⟩ := map_eq_ok.1 h
  refine ⟨r, hr, ?_⟩
  rw [Prenex.read_render, Regex.normalize_of_writable (Pattern.writable_parse hr)]

namespace Lexer

/-! ### Faults -/

theorem compileToken_eq_error_iff : compileToken rank name pattern = .error e ↔
    ∃ cause, Pattern.parse pattern.toList = .error cause ∧ e = .badPattern name cause := by
  unfold compileToken
  rw [toPrenex_bind_ofPrenex, Nfa.ofPattern]
  constructor
  · intro h
    split at h
    · cases h
    · next cause hcause =>
      cases h
      exact ⟨cause, map_eq_error.1 hcause, rfl⟩
  · rintro ⟨cause, hcause, rfl⟩
    rw [hcause]
    rfl

/-- **Compiling stops at the first fault.** -/
theorem compileTokens_eq_error_iff : compileTokens rank tokens = .error e ↔
    ∃ name cause, FirstFault tokens name cause ∧ e = .badPattern name cause := by
  constructor
  · intro h
    induction tokens generalizing rank with
    | nil => cases h
    | cons token tokens ih =>
      obtain ⟨name, pattern⟩ := token
      rcases bind_eq_error.1 h with htoken | ⟨n, hn, h⟩
      · obtain ⟨cause, hcause, he⟩ := compileToken_eq_error_iff.1 htoken
        exact ⟨name, cause, ⟨[], pattern, tokens, rfl, List.forall_mem_nil _, hcause⟩, he⟩
      · obtain ⟨r, hr, -⟩ := compileToken_eq_ok.1 hn
        rcases bind_eq_error.1 h with htokens | ⟨ns, -, h⟩
        · obtain ⟨name', cause, ⟨before, pattern', after, rfl, hbefore, hcause⟩, he⟩ := ih htokens
          exact ⟨name', cause, ⟨(name, pattern) :: before, pattern', after, rfl,
            List.forall_mem_cons.2 ⟨⟨r, hr⟩, hbefore⟩, hcause⟩, he⟩
        · cases h
  · rintro ⟨name, cause, ⟨before, pattern, after, rfl, hbefore, hcause⟩, rfl⟩
    induction before generalizing rank with
    | nil =>
      rw [List.nil_append, compileTokens, compileToken_eq_error_iff.2 ⟨cause, hcause, rfl⟩]
      rfl
    | cons token before ih =>
      obtain ⟨first, hrest⟩ := List.forall_mem_cons.1 hbefore
      obtain ⟨r, hr⟩ := first
      rw [List.cons_append, compileTokens, compileToken_eq_ok.2 ⟨r, hr, rfl⟩]
      show (compileTokens (rank + 1) _ >>= _) = _
      rw [ih hrest]
      rfl

/-- **A list has a first fault** if some pattern in it cannot be read. -/
theorem exists_firstFault_iff : (∃ name cause, FirstFault tokens name cause) ↔
    ∃ token ∈ tokens, ∃ cause, Pattern.parse token.2.toList = .error cause := by
  constructor
  · rintro ⟨name, cause, before, pattern, after, rfl, -, hcause⟩
    exact ⟨(name, pattern), by simp, cause, hcause⟩
  · rintro ⟨token, hmem, cause, hcause⟩
    cases h : compileTokens 0 tokens with
    | error e =>
      obtain ⟨name, cause, hfault, -⟩ := compileTokens_eq_error_iff.1 h
      exact ⟨name, cause, hfault⟩
    | ok ns =>
      -- otherwise the pattern would have a tree
      obtain ⟨rules, hrules, -⟩ := compileTokens_eq_ok.1 h
      obtain ⟨r, hr⟩ := exists_rules_iff.1 ⟨rules, hrules⟩ token hmem
      rw [hr] at hcause
      cases hcause

/-! ### The outcome of compiling -/

theorem compile_eq_error_iff : compile tokens = .error e ↔
    (∃ name cause, FirstFault tokens name cause ∧ e = .badPattern name cause) ∨
      tokens = [] ∧ e = .noTokens := by
  unfold compile
  rw [bind_eq_error, compileTokens_eq_error_iff]
  apply or_congr_right
  constructor
  · rintro ⟨ns, hns, h⟩
    obtain ⟨rules, hrules, rfl⟩ := compileTokens_eq_ok.1 hns
    -- automata can be joined unless there are none
    cases hrules with
    | nil =>
      cases h
      exact ⟨rfl, rfl⟩
    | cons _ _ => cases h
  · rintro ⟨rfl, rfl⟩
    exact ⟨[], rfl, rfl⟩

/-- **Compiling and reporting faults.** A list is refused as empty just if it is. It is refused for
a pattern just if one of its patterns cannot be read, and what is reported is the first of these,
with the name of its definition and the error of reading it; the prenex text that patterns pass
through is always read, as the tree of the pattern. Otherwise the list compiles, and its automaton
is that of the trees, each tagged with its name and its place in the list, joined in order. -/
theorem compile_direct (tokens : List (String × String)) :
    (compile tokens = .error .noTokens ↔ tokens = []) ∧
    (∀ name cause,
      compile tokens = .error (.badPattern name cause) ↔ FirstFault tokens name cause) ∧
    ((∃ name cause, compile tokens = .error (.badPattern name cause)) ↔
      ∃ token ∈ tokens, ∃ cause, Pattern.parse token.2.toList = .error cause) ∧
    (∀ pattern text, Pattern.toPrenex pattern = .ok text →
      ∃ r, Pattern.parse pattern = .ok r ∧ Prenex.read text = .ok r) ∧
    ((∃ lexer, compile tokens = .ok lexer) ↔
      tokens ≠ [] ∧ ∀ token ∈ tokens, ∃ r, Pattern.parse token.2.toList = .ok r) ∧
    ∀ lexer, compile tokens = .ok lexer ↔
      ∃ rules, List.Forall₂ ReadsAs tokens rules ∧
        Nfa.merge (rules.mapIdx fun rank rule =>
          (Nfa.ofRegex rule.2).tagFinal ⟨rule.1, rank⟩) = some lexer.nfa ∧
        lexer.dfa = Dfa.ofNfa lexer.nfa := by
  have hfault : ∀ name cause,
      compile tokens = .error (.badPattern name cause) ↔ FirstFault tokens name cause := by
    intro name cause
    rw [compile_eq_error_iff]
    simp
  refine ⟨?_, hfault, ?_, fun _ _ => exists_read_of_toPrenex, ?_, ?_⟩
  · rw [compile_eq_error_iff]
    simp
  · simp only [hfault, exists_firstFault_iff]
  · constructor
    · rintro ⟨lexer, hlexer⟩
      obtain ⟨rules, hrules, hmerge, -⟩ := compile_eq_ok_iff.1 hlexer
      refine ⟨?_, exists_rules_iff.1 ⟨rules, hrules⟩⟩
      rintro rfl
      cases hrules
      cases hmerge
    · rintro ⟨hne, hread⟩
      obtain ⟨rules, hrules⟩ := exists_rules_iff.2 hread
      exact exists_compile hrules hne
  · intro lexer
    simp only [compile_eq_ok_iff, map_snd_parts, Nat.zero_add]

/-- The second of three definitions has the first fault, and a name that is empty. Two definitions
may have one name, and the prenex text of a pattern with a space is read. -/
theorem compile_direct_names :
    compile [("A", "a"), ("", "("), ("B", "*")] = .error (.badPattern "" (.unclosedGroup 0)) ∧
    (∃ lexer, compile [("A", "a"), ("A", "' '*")] = .ok lexer) ∧
    ∃ r, Pattern.parse "' '*".toList = .ok r ∧ Prenex.read "STAR ' '".toList = .ok r := by
  obtain ⟨-, hfault, -, -, -, -⟩ := compile_direct [("A", "a"), ("", "("), ("B", "*")]
  obtain ⟨-, -, -, hprenex, hok, -⟩ := compile_direct [("A", "a"), ("A", "' '*")]
  have hletter : Pattern.parse "a".toList = .ok (.lit 'a') := by cbv
  have hspaces : Pattern.parse "' '*".toList = .ok (.star (.quoted ' ')) := by cbv
  refine ⟨(hfault _ _).2 ⟨[("A", "a")], "(", [("B", "*")], rfl, ?_, by cbv⟩, hok.2 ⟨?_, ?_⟩,
    hprenex _ _ (by cbv)⟩
  · exact List.forall_mem_singleton.2 ⟨_, hletter⟩
  · exact List.cons_ne_nil _ _
  · exact List.forall_mem_cons.2 ⟨⟨_, hletter⟩, List.forall_mem_singleton.2 ⟨_, hspaces⟩⟩

end Lexer

end LexerGen
