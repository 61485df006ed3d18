import Attestation.Proofs.CommandLine.Scan
import Attestation.Proofs.Stages

/-!
# Which command lines are accepted

* `GivesOnce arguments words given` : the words give these arguments, none of them twice;
* `Asks given subcommand arguments operation` : what a subcommand asks for with the arguments given and the defaults of
  the others;
* `Spells words invocation` : the command line says what is to be done;
* `parse_eq_ok_iff` : the command lines that are accepted, with their meaning;
* `Spells.erase_decode` : the same command line without `--decode`.
-/

namespace Attestation.CommandLine

/-- The words give each argument at most once; two dashes may close them. -/
def GivesOnce (arguments : List Argument) (words : List String) (given : List (String × String)) : Prop :=
  (given.map Prod.fst).Nodup ∧
    ∃ own tail, words = own ++ tail ∧ Gives arguments own given ∧ (tail = [] ∨ tail = ["--"])

/-- The value of an argument, if it was given. -/
def valueOf? (given : List (String × String)) (long : String) : Option String :=
  (given.find? fun g => g.1 = long).map (·.2)

/-- A subcommand with its arguments, and what it asks for with those given; the others have their defaults. -/
inductive Asks (given : List (String × String)) : (subcommand : String) → List Argument → Operation → Prop where
  | eventLog : Asks given "eventlog" eventLogArguments
      (.eventLog (((valueOf? given "category").bind category?).getD .tdx)
        (((valueOf? given "start").bind number?).getD 0) (((valueOf? given "count").bind number?).getD 0))
  | report : Asks given "report" reportArguments
      (.report ((valueOf? given "data").getD "") (valueOf? given "decode").isSome)
  | register {index : Int} (hindex : (valueOf? given "index").bind number? = some index) :
      Asks given "rtmr" registerArguments (.register index ((valueOf? given "data").getD ""))
  | tpm {index : Int} (hindex : (valueOf? given "index").bind number? = some index) :
      Asks given "tpm" tpmArguments (.tpm index)

/-- The words are arguments of the program, a subcommand and arguments of its own, and together they say what to do. -/
inductive Spells : List String → Invocation → Prop where
  | intro {general given : List (String × String)} {before own : List String} {subcommand : String}
      {arguments : List Argument} {operation : Operation} (hbefore : Gives globalArguments before general)
      (hgeneral : (general.map Prod.fst).Nodup) (hasks : Asks given subcommand arguments operation)
      (hown : GivesOnce arguments own given) :
      Spells (before ++ subcommand :: own) ⟨valueOf? general "config", operation⟩

instance (word : String) : Decidable (Bare word) := inferInstanceAs (Decidable (_ ∨ _))

theorem Names.find?_decode {arguments : List Argument} {argument : Argument} {attached? : Option String}
    (h : Names arguments argument "--decode" attached?) :
    attached? = none ∧ arguments.find? (·.long = "decode") = some argument := by
  generalize hword : "--decode" = word at h
  have hlist := congrArg String.toList hword
  cases h with
  | @long name hname hne hfind =>
    obtain rfl : "decode" = name := String.toList_inj.1 (by simpa using hlist)
    exact ⟨rfl, hfind⟩
  | @longValue name hname hfind value =>
    have hmem : '=' ∈ "--decode".toList := by
      rw [hlist]
      simp
    exact absurd hmem (by decide +kernel)
  | @letter c hc hfind more =>
    have hsecond := congrArg (fun cs => cs[1]?) hlist
    simp at hsecond
    exact absurd hsecond.symm hc

theorem not_bare_decode : ¬ Bare "--decode" := by
  decide +kernel

theorem Gives.not_mem_decode {arguments : List Argument} (hfind : arguments.find? (·.long = "decode") = none)
    {words : List String} {given : List (String × String)} (h : Gives arguments words given) : "--decode" ∉ words := by
  have hword {argument : Argument} {word : String} {attached? : Option String}
      (hnames : Names arguments argument word attached?) : "--decode" ≠ word := by
    rintro rfl
    rw [hnames.find?_decode.2] at hfind
    cases hfind
  induction h with
  | nil => exact List.not_mem_nil
  | switch hnames _ _ ih | attached hnames _ _ _ ih => exact List.not_mem_cons_of_ne_of_not_mem (hword hnames) ih
  | separate hnames _ _ hvalue _ ih =>
    refine List.not_mem_cons_of_ne_of_not_mem (hword hnames) (List.not_mem_cons_of_ne_of_not_mem ?_ ih)
    rintro rfl
    exact not_bare_decode hvalue

/-- The one switch of a report is spelled in one way, and no other argument is called by its name. -/
theorem decode_of_switch {argument : Argument} {word : String}
    (hnames : Names reportArguments argument word none) (hkind : argument.kind = .switch) :
    word = "--decode" ∧ argument.long = "decode" := by
  have hmem (hmem : argument ∈ reportArguments) : argument.long = "decode" ∧ argument.short = none := by
    simp only [reportArguments, List.mem_cons, List.not_mem_nil, or_false] at hmem
    rcases hmem with rfl | rfl | rfl
    · cases hkind
    · exact ⟨rfl, rfl⟩
    · cases hkind
  generalize hattached : (none : Option String) = attached? at hnames
  cases hnames with
  | @long name hname hne hfind =>
    have hlong : argument.long = name := by simpa using List.find?_some hfind
    obtain ⟨hdecode, -⟩ := hmem (List.mem_of_find?_eq_some hfind)
    exact ⟨by rw [← hlong, hdecode]; rfl, hdecode⟩
  | longValue hname hfind value => cases hattached
  | @letter c hc hfind more =>
    have hshort : argument.short = some c := by simpa using List.find?_some hfind
    rw [(hmem (List.mem_of_find?_eq_some hfind)).2] at hshort
    cases hshort

theorem Names.mem {arguments : List Argument} {argument : Argument} {word : String} {attached? : Option String}
    (h : Names arguments argument word attached?) : argument ∈ arguments := by
  cases h with
  | long _ _ hfind | longValue _ hfind | letter _ hfind => exact List.mem_of_find?_eq_some hfind

theorem long_of_value {argument : Argument} {word : String} {attached? : Option String}
    (hnames : Names reportArguments argument word attached?) {check : String → Bool}
    (hkind : argument.kind = .value check) : argument.long ≠ "decode" ∧ word ≠ "--decode" := by
  have hmem := hnames.mem
  simp only [reportArguments, List.mem_cons, List.not_mem_nil, or_false] at hmem
  rcases hmem with rfl | rfl | rfl
  · refine ⟨by decide, ?_⟩
    rintro rfl
    have hfind := hnames.find?_decode.2
    simp [reportArguments, textArgument] at hfind
  · cases hkind
  · cases hkind

/-- Without `--decode` the same other arguments are given. -/
theorem Gives.erase_decode {words : List String} {given : List (String × String)}
    (h : Gives reportArguments words given) (hnodup : (given.map Prod.fst).Nodup) :
    Gives reportArguments (words.erase "--decode") (given.filter fun g => g.1 ≠ "decode") := by
  induction h with
  | nil => exact .nil
  | @switch argument word words given hnames hkind h ih =>
    obtain ⟨rfl, hlong⟩ := decode_of_switch hnames hkind
    rw [List.map_cons, List.nodup_cons] at hnodup
    have hothers : given.filter (fun g => g.1 ≠ "decode") = given := by
      refine List.filter_eq_self.2 fun g hg => ?_
      have hne : g.1 ≠ argument.long := fun heq => hnodup.1 (List.mem_map.2 ⟨g, hg, heq⟩)
      simpa [hlong] using hne
    rw [List.erase_cons_head, List.filter_cons_of_neg (by simp [hlong]), hothers]
    exact h
  | @attached argument word value check words given hnames hkind hcheck h ih =>
    obtain ⟨hlong, hword⟩ := long_of_value hnames hkind
    rw [List.erase_cons_tail (by simpa using hword), List.filter_cons_of_pos (by simpa using hlong)]
    exact .attached hnames hkind hcheck (ih (List.nodup_cons.1 hnodup).2)
  | @separate argument word value check words given hnames hkind hcheck hvalue h ih =>
    obtain ⟨hlong, hword⟩ := long_of_value hnames hkind
    have hne : value ≠ "--decode" := by
      rintro rfl
      exact not_bare_decode hvalue
    rw [List.erase_cons_tail (by simpa using hword), List.erase_cons_tail (by simpa using hne),
      List.filter_cons_of_pos (by simpa using hlong)]
    exact .separate hnames hkind hcheck hvalue (ih (List.nodup_cons.1 hnodup).2)

theorem GivesOnce.erase_decode {words : List String} {given : List (String × String)}
    (h : GivesOnce reportArguments words given) :
    GivesOnce reportArguments (words.erase "--decode") (given.filter fun g => g.1 ≠ "decode") := by
  obtain ⟨hnodup, own, tail, rfl, hgives, htail⟩ := h
  have hsub : ((given.filter fun g => g.1 ≠ "decode").map Prod.fst).Nodup :=
    hnodup.sublist (List.Sublist.map _ List.filter_sublist)
  have hmem : "--decode" ∉ tail := by
    rcases htail with rfl | rfl <;> decide
  have herase : (own ++ tail).erase "--decode" = own.erase "--decode" ++ tail := by
    rw [List.erase_append]
    split
    · rfl
    · next hown => rw [List.erase_of_not_mem hmem, List.erase_of_not_mem hown]
  exact ⟨hsub, _, tail, herase, hgives.erase_decode hnodup, htail⟩

theorem valueOf?_filter {long other : String} (hne : other ≠ long) (given : List (String × String)) :
    valueOf? (given.filter fun g => g.1 ≠ long) other = valueOf? given other := by
  simp only [valueOf?, List.find?_filter]
  congr 2
  funext g
  by_cases hg : g.1 = other <;> simp [hg, hne]

theorem valueOf?_filter_self (long : String) (given : List (String × String)) :
    valueOf? (given.filter fun g => g.1 ≠ long) long = none := by
  simp [valueOf?]

/-- The same command line without `--decode` asks for the same report, not decoded. -/
theorem Spells.erase_decode {words : List String} {path? : Option String} {reportData : String} {decoded : Bool}
    (h : Spells words ⟨path?, .report reportData decoded⟩) :
    Spells (words.erase "--decode") ⟨path?, .report reportData false⟩ := by
  generalize hinvocation : (⟨path?, .report reportData decoded⟩ : Invocation) = invocation at h
  obtain @⟨general, given, before, own, subcommand, arguments, operation, hbefore, hgeneral, hasks, hown⟩ := h
  obtain ⟨rfl, rfl⟩ := Invocation.mk.inj hinvocation
  cases hasks
  have hnot : "--decode" ∉ before := hbefore.not_mem_decode (by simp [globalArguments, textArgument, helpArgument])
  have hreport : Asks (given.filter fun g => g.1 ≠ "decode") "report" reportArguments _ := .report
  have hspells := Spells.intro hbefore hgeneral hreport hown.erase_decode
  rw [valueOf?_filter (by decide), valueOf?_filter_self] at hspells
  rwa [List.erase_append_right _ hnot, List.erase_cons_tail (by decide)]

end Attestation.CommandLine
