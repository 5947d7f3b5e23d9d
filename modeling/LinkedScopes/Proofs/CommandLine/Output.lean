import LinkedScopes.Proofs.Chain.Outline
import LinkedScopes.Proofs.CommandLine.Logging
import LinkedScopes.Proofs.Grammar.Soundness

/-! What a run puts out tells the chain it has read. A run succeeds exactly if it reads a
chain, and its output is the outline of that chain and nothing else. -/
namespace LinkedScopes

/-- The command line names a text, and the chain is what is read from its tokens. -/
def Reads (arguments : List String) (disk : Disk) (chain : Chain) : Prop :=
  ∃ inv text tokens t, Invocation.ofArguments arguments = .ok inv ∧
    disk.text inv.file = .ok text ∧ (Source.mk text inv.fileName).tokens = .ok tokens ∧
    parse tokens inv.limit = (.ok chain, t)

theorem Reads.unique {arguments : List String} {disk : Disk} {c d : Chain}
    (first : Reads arguments disk c) (second : Reads arguments disk d) : c = d := by
  obtain ⟨inv, text, tokens, t, accepted, read, cut, run⟩ := first
  obtain ⟨inv', text', tokens', t', accepted', read', cut', run'⟩ := second
  obtain rfl := Except.ok.inj (accepted.symm.trans accepted')
  obtain rfl := Except.ok.inj (read.symm.trans read')
  obtain rfl := Except.ok.inj (cut.symm.trans cut')
  exact Except.ok.inj (congrArg Prod.fst (run.symm.trans run'))

theorem Reads.sound {arguments : List String} {disk : Disk} {chain : Chain}
    (reads : Reads arguments disk chain) : ∀ link ∈ chain, link.Sound := by
  obtain ⟨inv, text, tokens, t, -, -, -, run⟩ := reads
  obtain ⟨p, -, -, -, rfl, -⟩ := parse_accepts run
  have formed : p.value.Formed IsCommand := p.value_valid
  intro link member command given
  have inside : command ∈ p.value.program.commands :=
    List.mem_filterMap.mpr ⟨link, member, given⟩
  rw [Item.commands_program] at inside
  exact formed.valid_of_mem_commands command inside

theorem Response.faulty_not_succeeded (events : List Event) (said : String) (source : Source)
    (d : Diagnostic) : (faulty events said source d).ending ≠ .succeeded := by
  rw [faulty]
  cases d.report? source.text <;> simp

theorem Ending.exit_eq_zero_iff {ending : Ending} : ending.exit = 0 ↔ ending = .succeeded := by
  cases ending <;> decide

theorem Invocation.response_succeeded {inv : Invocation} {disk : Disk} {times : Timings}
    (done : (inv.response disk times).ending = .succeeded) :
    ∃ text tokens chain t, disk.text inv.file = .ok text ∧
      (Source.mk text inv.fileName).tokens = .ok tokens ∧
      parse tokens inv.limit = (.ok chain, t) := by
  obtain ⟨failure, -, same⟩ | ⟨text, d, -, -, same⟩ | ⟨text, tokens, read, cut, same⟩ :=
    inv.response_cases disk
  · rw [same] at done
    cases done
  · rw [same] at done
    exact (Response.faulty_not_succeeded _ _ _ _ done).elim
  · rw [same] at done
    match run : parse tokens inv.limit with
    | (.ok chain, t) => exact ⟨text, tokens, chain, t, read, cut, run⟩
    | (.error (.fault d), t) =>
      rw [run] at done
      exact (Response.faulty_not_succeeded _ _ _ _ done).elim
    | (.error .exhausted, t) =>
      rw [run] at done
      cases done

theorem RunResult.ofResponse_said (r : Response) (log : Option String) (disk : Disk) :
    (ofResponse r log disk).exit = r.ending.exit ∧
      (ofResponse r log disk).output = r.output := by
  cases log <;> exact ⟨rfl, rfl⟩

theorem Reads.said {arguments : List String} {disk : Disk} {chain : Chain}
    (reads : Reads arguments disk chain) (times : Timings) :
    (run arguments disk times).exit = 0 ∧
      (run arguments disk times).output = chain.outline := by
  obtain ⟨inv, text, tokens, t, accepted, read, cut, parsed⟩ := reads
  have response : inv.response disk times =
      .parsed ⟨text, inv.fileName⟩ tokens (.ok chain, t) times := by
    rw [Invocation.response, read, ← parsed]
    simp only [Response.ofText, cut]
  rw [run_of_accepted accepted, response]
  exact RunResult.ofResponse_said _ inv.log disk

theorem exit_eq_zero_iff {arguments : List String} {disk : Disk} {times : Timings} :
    (run arguments disk times).exit = 0 ↔ ∃ chain, Reads arguments disk chain := by
  constructor
  · intro done
    cases accepted : Invocation.ofArguments arguments with
    | error e => simp [run, accepted] at done
    | ok inv =>
      rw [run_of_accepted accepted] at done
      have exit := (RunResult.ofResponse_said (inv.response disk times) inv.log disk).1
      have succeeded := Ending.exit_eq_zero_iff.mp (exit.symm.trans done)
      obtain ⟨text, tokens, chain, t, read, cut, parsed⟩ := inv.response_succeeded succeeded
      exact ⟨chain, inv, text, tokens, t, accepted, read, cut, parsed⟩
  · rintro ⟨chain, reads⟩
    exact (reads.said times).1

/-- The output of a run that succeeds tells the chain it has read, up to numbers that are
written alike: it lists the chain link by link, and two runs put out the same exactly if
they have read alike chains. -/
theorem output_eq_iff_alike {arguments arguments' : List String} {disk disk' : Disk}
    {times times' : Timings} (done : (run arguments disk times).exit = 0)
    (done' : (run arguments' disk' times').exit = 0) :
    ∃ chain chain', (∀ c, Reads arguments disk c ↔ c = chain) ∧
      (∀ c, Reads arguments' disk' c ↔ c = chain') ∧
      chain.Listed (run arguments disk times).output ∧
      ((run arguments disk times).output = (run arguments' disk' times').output ↔
        chain.Alike chain') := by
  obtain ⟨chain, reads⟩ := exit_eq_zero_iff.mp done
  obtain ⟨chain', reads'⟩ := exit_eq_zero_iff.mp done'
  rw [(reads.said times).2, (reads'.said times').2]
  exact ⟨chain, chain', fun c => ⟨fun other => other.unique reads, (· ▸ reads)⟩,
    fun c => ⟨fun other => other.unique reads', (· ▸ reads')⟩, Chain.listed_outline reads.sound,
    Chain.outline_eq_iff reads.sound reads'.sound⟩

/-- One assignment in two layouts. -/
theorem output_eq_iff_alike_spaced :
    let disk (text : String) : Disk := ⟨[(Location.working.step "a", .file text.toUTF8)]⟩
    let times : Timings := ⟨"1ms", "2ms"⟩
    (run ["a"] (disk "a=b;") times).exit = 0 ∧
      (run ["a", "--max-depth", "9"] (disk "a = b ;") times).exit = 0 ∧
      ∃ chain chain', Reads ["a"] (disk "a=b;") chain ∧
        Reads ["a", "--max-depth", "9"] (disk "a = b ;") chain' ∧ chain.Alike chain' := by
  intro disk times
  have done : (run ["a"] (disk "a=b;") times).exit = 0 := by decide +kernel
  have done' : (run ["a", "--max-depth", "9"] (disk "a = b ;") times).exit = 0 := by
    decide +kernel
  have same : (run ["a"] (disk "a=b;") times).output =
      (run ["a", "--max-depth", "9"] (disk "a = b ;") times).output := by decide +kernel
  obtain ⟨chain, chain', reads, reads', -, alike⟩ := output_eq_iff_alike done done'
  exact ⟨done, done', chain, chain', (reads chain).mpr rfl, (reads' chain').mpr rfl,
    alike.mp same⟩

end LinkedScopes
