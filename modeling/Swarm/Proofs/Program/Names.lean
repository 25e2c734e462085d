import Mathlib.Data.List.Nodup
import Swarm.Proofs.Engine.Defects
import Swarm.Proofs.Program.Emission

/-!
# Procedures by name

A procedure is found by its name in two ways. Assembly resolves the callee of a call by the full
lower case of names, which an accepted program has only once; a job is made for the first procedure
whose name is equal up to the case of the basic Latin letters. Folding these letters does not change
the full lower case, so what a job finds is what a call is resolved to. The converse fails for names
with other letters: a call may find a procedure that no job finds.

## Main definitions

* `ProgramDef.ResolvesCall`: a call by a name is resolved to a procedure

## Main results

* `Text.toLower_eq_of_eqFolding`: equality up to basic Latin case is equality of lower case
* `ProgramDef.resolvesCall_iff`: which call is resolved to which procedure
* `Program.lookup_iff_resolvesCall`: when jobs and calls find the same procedure
* `Program.not_lookup_of_resolvesCall`: a name that only calls find
-/

namespace Swarm

-- ════════════════════════════════════════════════════════════════════════
-- Letter case
-- ════════════════════════════════════════════════════════════════════════

namespace Text

/-- Folding changes basic Latin capitals only. -/
theorem toLower_eq_self_or_capital (c : Char) :
    c.toLower = c ∨ ∃ n ∈ List.range' 65 26, c = Char.ofNat n := by
  unfold Char.toLower
  split
  · next h =>
    have hlow : 65 ≤ c.toNat := h.1
    have hhigh : c.toNat ≤ 90 := h.2
    refine .inr ⟨c.toNat, ?_, (Char.ofNat_toNat c).symm⟩
    simp only [List.mem_range'_1]
    omega
  · exact .inl rfl

/-- All that lower-casing a text asks of a character. -/
structure SameCase (c c' : Char) : Prop where
  lower : lowerChar c' = lowerChar c
  ignorable : inRanges ignorableRanges c' = inRanges ignorableRanges c
  cased : inRanges casedRanges c' = inRanges casedRanges c
  sigma : (c' == capitalSigma) = (c == capitalSigma)

/-- Only ranges that begin below a bound hold code points below it. -/
theorem inRanges_of_lt {bound : Nat} {c : Char} (h : c.toNat < bound)
    (ranges : List (Nat × Nat)) :
    inRanges ranges c = inRanges (ranges.filter fun r => r.1 < bound) c := by
  have hbegins (r : Nat × Nat) : (decide (r.1 < bound) && (r.1 ≤ c.toNat && c.toNat ≤ r.2)) =
      (decide (r.1 ≤ c.toNat) && decide (c.toNat ≤ r.2)) := by
    rw [Bool.eq_iff_iff]
    simp only [Bool.and_eq_true, decide_eq_true_eq]
    omega
  simp only [inRanges, List.any_filter, hbegins]

/-- What does not hold of an element is not found among those that were dropped for it. -/
theorem find?_filter_of_imp {α : Type} {p q : α → Bool}
    (imp : ∀ x, q x = true → p x = true) (xs : List α) : (xs.filter p).find? q = xs.find? q := by
  rw [List.find?_filter]
  congr 1
  funext x
  rw [Bool.eq_iff_iff, decide_eq_true_eq]
  exact and_iff_right_of_imp (imp x)

/-- Only entries that begin below a bound map code points below it. -/
theorem mapCase_of_lt {bound : Nat} {c : Char} (h : c.toNat < bound)
    (expansions : List (Nat × List Nat)) (runs : List Run) :
    mapCase expansions runs c = mapCase (expansions.filter fun e => e.1 < bound)
      (runs.filter fun r => r.first < bound) c := by
  have hexpansion (e : Nat × List Nat) (he : (e.1 == c.toNat) = true) :
      decide (e.1 < bound) = true := by
    simp only [beq_iff_eq, decide_eq_true_eq] at he ⊢
    omega
  have hrun (r : Run) (hr : r.contains c.toNat = true) : decide (r.first < bound) = true := by
    simp only [Run.contains, Bool.and_eq_true, decide_eq_true_eq] at hr ⊢
    omega
  rw [mapCase, mapCase, find?_filter_of_imp hexpansion, find?_filter_of_imp hrun]

theorem sameCase_toLower (c : Char) : SameCase c c.toLower := by
  -- the parts of the tables that concern basic Latin letters
  have hexpansions : lowerExpansions.filter (fun e => e.1 < 128) = [] := rfl
  have hruns : lowerRuns.filter (fun r => r.first < 128) = [⟨0x41, 0x5A, 1, 32⟩] := rfl
  have hignorable : ignorableRanges.filter (fun r => r.1 < 128) =
      [(0x27, 0x27), (0x2E, 0x2E), (0x3A, 0x3A), (0x5E, 0x5E), (0x60, 0x60)] := by decide +kernel
  have hcased : casedRanges.filter (fun r => r.1 < 128) = [(0x41, 0x5A), (0x61, 0x7A)] := by
    decide +kernel
  have hcapitals : ∀ n ∈ List.range' 65 26, let c := Char.ofNat n
      c.toNat < 128 ∧ c.toLower.toNat < 128
      ∧ mapCase [] [⟨0x41, 0x5A, 1, 32⟩] c.toLower = mapCase [] [⟨0x41, 0x5A, 1, 32⟩] c
      ∧ inRanges [(0x27, 0x27), (0x2E, 0x2E), (0x3A, 0x3A), (0x5E, 0x5E), (0x60, 0x60)] c.toLower =
        inRanges [(0x27, 0x27), (0x2E, 0x2E), (0x3A, 0x3A), (0x5E, 0x5E), (0x60, 0x60)] c
      ∧ inRanges [(0x41, 0x5A), (0x61, 0x7A)] c.toLower = inRanges [(0x41, 0x5A), (0x61, 0x7A)] c
      ∧ (c.toLower == capitalSigma) = (c == capitalSigma) := by decide +kernel
  rcases toLower_eq_self_or_capital c with hc | ⟨n, hn, rfl⟩
  · rw [hc]
    exact ⟨rfl, rfl, rfl, rfl⟩
  · obtain ⟨hlt, hlt', lower, ignorable, cased, sigma⟩ := hcapitals n hn
    refine ⟨?_, ?_, ?_, sigma⟩
    · rw [lowerChar, lowerChar, mapCase_of_lt hlt, mapCase_of_lt hlt', hexpansions, hruns, lower]
    · rw [inRanges_of_lt hlt, inRanges_of_lt hlt', hignorable, ignorable]
    · rw [inRanges_of_lt hlt, inRanges_of_lt hlt', hcased, cased]

theorem meetsCased_map_toLower (cs : List Char) :
    meetsCased (cs.map Char.toLower) = meetsCased cs := by
  induction cs with
  | nil => rfl
  | cons c rest ih =>
    have hc := sameCase_toLower c
    cases hskipped : inRanges ignorableRanges c with
    | true => simpa [meetsCased, hc.ignorable, hskipped] using ih
    | false => simp [meetsCased, hc.ignorable, hskipped, hc.cased]

/-- The neighbours of a sigma are of the same classes after folding. -/
theorem lowerAfter_map_toLower (before cs : List Char) :
    lowerAfter (before.map Char.toLower) (cs.map Char.toLower) = lowerAfter before cs := by
  induction cs generalizing before with
  | nil => rfl
  | cons c rest ih =>
    have hc := sameCase_toLower c
    have hrest := ih (c :: before)
    rw [List.map_cons] at hrest
    simp only [lowerAfter, List.map_cons, hc.sigma, hc.lower, meetsCased_map_toLower, hrest]

/-- Texts that are equal up to the case of the basic Latin letters have the same lower case. -/
theorem toLower_eq_of_eqFolding {s t : String} (h : eqFolding s t = true) :
    toLower s = toLower t := by
  have hfolded : s.toList.map Char.toLower = t.toList.map Char.toLower := by
    simpa [eqFolding] using h
  rw [toLower, toLower, ← lowerAfter_map_toLower [] s.toList, hfolded, lowerAfter_map_toLower]

end Text

-- ════════════════════════════════════════════════════════════════════════
-- Calls
-- ════════════════════════════════════════════════════════════════════════

/-- Looking for what stands at one place at most finds this place. -/
theorem List.findIdx?_eq_some_iff_of_unique {α : Type} {xs : List α} {p : α → Bool}
    (unique : ∀ (i j : Nat) (x y : α), xs[i]? = some x → xs[j]? = some y →
      p x = true → p y = true → i = j)
    {i : Nat} : xs.findIdx? p = some i ↔ ∃ x, xs[i]? = some x ∧ p x = true := by
  constructor
  · intro h
    obtain ⟨hlt, hp, _⟩ := List.findIdx?_eq_some_iff_getElem.1 h
    exact ⟨xs[i], List.getElem?_eq_getElem hlt, hp⟩
  · rintro ⟨x, hx, hp⟩
    obtain ⟨hlt, rfl⟩ := List.getElem?_eq_some_iff.1 hx
    refine List.findIdx?_eq_some_iff_getElem.2 ⟨hlt, hp, fun j hj hpj => ?_⟩
    have heq := unique i j _ _ hx (List.getElem?_eq_getElem (by omega)) hp hpj
    omega

namespace ProgramDef

variable {d : ProgramDef} {w : World} {forgiving : Bool} {program : Program} {name : String}

/-- A call by `name` is resolved to the procedure at `index`: in whatever procedure it stands, and
given as many arguments as that procedure has inputs, it is emitted as a call of the procedure. -/
def ResolvesCall (d : ProgramDef) (name : String) (index : Nat) : Prop :=
  ∃ callee, d.procedures[index]? = some callee ∧ ∀ sc : Scope, sc.procedures = d.procedures →
    ∀ given args position t, sc.checkExprs args = .ok () → args.length = callee.inputs →
      sc.emitStatement ⟨.call name given, args, [], position⟩ t =
        .ok (t.push (.ofCommand (.call name index) args position t.offset))

/-- A call passes its check if its callee is found and its arguments pass theirs. -/
theorem checkStatement_call {sc : Scope} {index given : Nat} {callee : ProcedureDef}
    {args : List Expr} {position : Position} (hindex : calleeIndex? sc.procedures name = some index)
    (hcallee : sc.procedures[index]? = some callee) (hargs : sc.checkExprs args = .ok ())
    (hcount : args.length = callee.inputs) :
    sc.checkStatement ⟨.call name given, args, [], position⟩ = .ok () := by
  have harity : sc.checkArity (.call name given) args.length = .ok () := by
    rw [Scope.checkArity, hindex, Option.bind_some, hcallee]
    exact Scope.checkCount_eq_ok_iff.2 hcount
  rw [Scope.checkStatement]
  refine Except.seq_eq_ok_iff.2 ⟨?_, rfl⟩
  exact Except.seq_eq_ok_iff.2 ⟨harity, Except.seq_eq_ok_iff.2 ⟨rfl,
    Except.seq_eq_ok_iff.2 ⟨rfl, hargs⟩⟩⟩

/-- Constants pass every check. -/
theorem checkExprs_replicate (sc : Scope) (n : Nat) (v : Value) :
    sc.checkExprs (List.replicate n (.constant v)) = .ok () := by
  induction n with
  | zero => rfl
  | succ n ih => exact Except.seq_eq_ok_iff.2 ⟨rfl, ih⟩

/-- Which call is resolved to which procedure. -/
theorem resolvesCall_iff {index : Nat} :
    d.ResolvesCall name index ↔ calleeIndex? d.procedures name = some index := by
  constructor
  · rintro ⟨callee, _, hemits⟩
    -- a call with constants as arguments, in a procedure of its own
    have hcall := hemits ⟨false, fun _ => 0, d.procedures, default⟩ rfl 0
      (List.replicate callee.inputs (.constant .nobody)) .zero ⟨[], []⟩
      (checkExprs_replicate _ _ _) List.length_replicate
    rw [Scope.emitStatement_eq] at hcall
    cases hcheck : Scope.checkStatement ⟨false, fun _ => 0, d.procedures, default⟩
        ⟨.call name 0, List.replicate callee.inputs (.constant .nobody), [], .zero⟩ with
    | error f =>
      rw [hcheck] at hcall
      cases hcall
    | ok _ =>
      rw [hcheck] at hcall
      obtain ⟨_, hhead, _⟩ := Except.bind_eq_ok hcheck
      obtain ⟨_, _, harity, _⟩ := Scope.checkHead_eq_ok hhead
      cases hplace : calleeIndex? d.procedures name with
      | none =>
        rw [Scope.checkArity, hplace] at harity
        cases harity
      | some place =>
        simp only [Except.map, layoutStatement, Command.resolve, hplace, Option.getD_some,
          Draft.push, Draft.extend, Draft.offset, List.nil_append, List.length_nil] at hcall
        injection hcall with hcall
        injection hcall with hcode
        injection hcode with hinstruction
        have hcommand := congrArg Instruction.command hinstruction
        injection hcommand with _ hindex
        rw [hindex]
  · intro hindex
    obtain ⟨callee, hcallee, _⟩ := calleeIndex?_eq_some hindex
    refine ⟨callee, hcallee, fun sc hsc given args position t hargs hcount => ?_⟩
    have hcheck : sc.checkStatement ⟨.call name given, args, [], position⟩ = .ok () :=
      checkStatement_call (hsc ▸ hindex) (hsc ▸ hcallee) hargs hcount
    rw [(Scope.emitStatement_eq sc _).of_ok hcheck, layoutStatement, Command.resolve, hsc, hindex]
    rfl

/-- In an accepted program one procedure at most has a name, up to full case. -/
theorem eq_of_names (h : d.assemble w forgiving = .ok program) {i j : Nat} {p q : ProcedureDef}
    (hp : d.procedures[i]? = some p) (hq : d.procedures[j]? = some q)
    (hnames : Text.toLower p.name = Text.toLower q.name) : i = j := by
  obtain ⟨hcheck, _⟩ := assemble_eq_ok h
  have hnodup := (check_eq_ok_iff.1 hcheck).names
  obtain ⟨hi, rfl⟩ := List.getElem?_eq_some_iff.1 hp
  obtain ⟨hj, rfl⟩ := List.getElem?_eq_some_iff.1 hq
  have hi' : i < (d.procedures.map fun p => Text.toLower p.name).length := by simpa using hi
  have hj' : j < (d.procedures.map fun p => Text.toLower p.name).length := by simpa using hj
  have heq : (d.procedures.map fun p => Text.toLower p.name)[i] =
      (d.procedures.map fun p => Text.toLower p.name)[j] := by
    simpa using hnames
  exact hnodup.getElem_inj_iff.1 heq

/-- A call is resolved to the procedure with its name, up to full case. -/
theorem resolvesCall_iff_procedure (h : d.assemble w forgiving = .ok program) {index : Nat} :
    d.ResolvesCall name index ↔
      ∃ q, program.procedures[index]? = some q ∧ Text.toLower q.name = Text.toLower name := by
  obtain ⟨_, rfl, _⟩ := assemble_eq_ok h
  rw [resolvesCall_iff, calleeIndex?, List.findIdx?_eq_some_iff_of_unique fun i j p q hp hq hi hj =>
    eq_of_names h hp hq ((beq_iff_eq.1 hi).trans (beq_iff_eq.1 hj).symm)]
  simp only [layout, List.getElem?_toArray, List.getElem?_map, Option.map_eq_some_iff]
  constructor
  · rintro ⟨p, hp, hname⟩
    exact ⟨_, ⟨p, hp, rfl⟩, beq_iff_eq.1 hname⟩
  · rintro ⟨_, ⟨p, hp, rfl⟩, hname⟩
    exact ⟨p, hp, beq_iff_eq.2 hname⟩

end ProgramDef

namespace Program

variable {d : ProgramDef} {w : World} {forgiving : Bool} {program : Program} {name : String}

/-- In an accepted program one procedure at most has a name, up to full case. -/
theorem eq_of_names (h : d.assemble w forgiving = .ok program) {i j : Nat} {q r : Procedure}
    (hq : program.procedures[i]? = some q) (hr : program.procedures[j]? = some r)
    (hnames : Text.toLower q.name = Text.toLower r.name) : i = j := by
  obtain ⟨p, hp, rfl, _⟩ := ProgramDef.procedure_of_assemble h hq
  obtain ⟨p', hp', rfl, _⟩ := ProgramDef.procedure_of_assemble h hr
  exact ProgramDef.eq_of_names h hp hp' hnames

/-- A job is made for the procedure with its name, up to basic Latin case. -/
theorem lookup_eq_ok_iff (h : d.assemble w forgiving = .ok program) {index : Nat} {q : Procedure} :
    program.lookup name = .ok (index, q) ↔
      program.procedures[index]? = some q ∧ Text.eqFolding q.name name = true := by
  have hfound : (program.procedures.findIdx? fun q => Text.eqFolding q.name name) = some index ↔
      ∃ q, program.procedures[index]? = some q ∧ Text.eqFolding q.name name = true := by
    rw [show (program.procedures.findIdx? _) = _ from
      List.findIdx?_toArray _ program.procedures.toList]
    simp only [← Array.getElem?_toList]
    refine List.findIdx?_eq_some_iff_of_unique fun i j q r hq hr hi hj => ?_
    rw [Array.getElem?_toList] at hq hr
    exact eq_of_names h hq hr
      ((Text.toLower_eq_of_eqFolding hi).trans (Text.toLower_eq_of_eqFolding hj).symm)
  constructor
  · intro hlookup
    have hq := lookup_eq_ok hlookup
    rw [lookup] at hlookup
    split at hlookup
    · next place hplace =>
      split at hlookup
      · cases hlookup
        obtain ⟨r, hr, hname⟩ := hfound.1 hplace
        cases hq.symm.trans hr
        exact ⟨hq, hname⟩
      · cases hlookup
    · cases hlookup
  · rintro ⟨hq, hname⟩
    rw [lookup, hfound.2 ⟨q, hq, hname⟩]
    simp only [hq]

/-- In an accepted program one procedure at most answers to a name. What a job finds is what a call
is resolved to, but a job finds a procedure only if its name is the same up to the case of the basic
Latin letters. So the two agree on a name exactly if whatever procedure has it up to full case has
it up to basic Latin case. -/
theorem lookup_iff_resolvesCall (h : d.assemble w forgiving = .ok program) (name : String) :
    (∀ (i j : Nat) q r, program.procedures[i]? = some q → program.procedures[j]? = some r →
      Text.toLower q.name = Text.toLower name → Text.toLower r.name = Text.toLower name → i = j)
    ∧ (∀ index, d.ResolvesCall name index ↔
      ∃ q, program.procedures[index]? = some q ∧ Text.toLower q.name = Text.toLower name)
    ∧ (∀ index q, program.lookup name = .ok (index, q) ↔ d.ResolvesCall name index
      ∧ program.procedures[index]? = some q ∧ Text.eqFolding q.name name = true)
    ∧ ((∀ index, (∃ q, program.lookup name = .ok (index, q)) ↔ d.ResolvesCall name index) ↔
      ∀ q ∈ program.procedures, Text.toLower q.name = Text.toLower name →
        Text.eqFolding q.name name = true) := by
  have hresolves (index : Nat) : d.ResolvesCall name index ↔ ∃ q,
      program.procedures[index]? = some q ∧ Text.toLower q.name = Text.toLower name :=
    ProgramDef.resolvesCall_iff_procedure h
  refine ⟨fun i j q r hq hr hi hj => eq_of_names h hq hr (hi.trans hj.symm), hresolves,
    fun index q => ?_, ⟨fun hagree q hmem hname => ?_, fun hfolded index => ⟨?_, ?_⟩⟩⟩
  · rw [lookup_eq_ok_iff h, hresolves]
    constructor
    · rintro ⟨hq, hname⟩
      exact ⟨⟨q, hq, Text.toLower_eq_of_eqFolding hname⟩, hq, hname⟩
    · rintro ⟨_, hq, hname⟩
      exact ⟨hq, hname⟩
  · obtain ⟨index, hq⟩ := Array.getElem?_of_mem hmem
    obtain ⟨r, hlookup⟩ := (hagree index).2 ((hresolves index).2 ⟨q, hq, hname⟩)
    obtain ⟨hr, hfold⟩ := (lookup_eq_ok_iff h).1 hlookup
    cases hq.symm.trans hr
    exact hfold
  · rintro ⟨q, hlookup⟩
    obtain ⟨hq, hfold⟩ := (lookup_eq_ok_iff h).1 hlookup
    exact (hresolves index).2 ⟨q, hq, Text.toLower_eq_of_eqFolding hfold⟩
  · intro hcall
    obtain ⟨q, hq, hname⟩ := (hresolves index).1 hcall
    exact ⟨q, (lookup_eq_ok_iff h).2 ⟨hq, hfolded q (Array.mem_of_getElem? hq) hname⟩⟩

/-- A program whose first procedure has a name with letters that are not basic Latin, and whose
second calls it by its lower case. -/
def summer : ProgramDef where
  procedures :=
    [⟨"ÉTÉ", 0, 0, []⟩, ⟨"go", 0, 0, [⟨.call "été" 0, [], [], .zero⟩]⟩]

theorem lookup_iff_resolvesCall_summer :
    ∃ program, summer.assemble (World.build .default) false = .ok program
      ∧ (∃ q, program.lookup "GO" = .ok (1, q)) ∧ summer.ResolvesCall "GO" 1
      ∧ summer.ResolvesCall "été" 0 ∧ ¬ ∃ q, program.lookup "été" = .ok (0, q) := by
  have hok : summer.assemble (World.build .default) false = .ok summer.layout := rfl
  obtain ⟨_, hcallsGo, hjobsGo, _⟩ := lookup_iff_resolvesCall hok "GO"
  obtain ⟨_, hcalls, hjobs, _⟩ := lookup_iff_resolvesCall hok "été"
  have hgo : summer.ResolvesCall "GO" 1 := (hcallsGo 1).2 ⟨_, rfl, by decide +kernel⟩
  refine ⟨_, hok, ⟨_, (hjobsGo 1 _).2 ⟨hgo, rfl, by decide +kernel⟩⟩, hgo,
    (hcalls 0).2 ⟨_, rfl, by decide +kernel⟩, ?_⟩
  rintro ⟨q, hlookup⟩
  obtain ⟨_, hq, hfold⟩ := (hjobs 0 q).1 hlookup
  cases hq
  exact absurd hfold (by decide +kernel)

/-- A name that calls find and jobs do not. -/
theorem not_lookup_of_resolvesCall :
    ¬ ∀ (d : ProgramDef) (w : World) (forgiving : Bool) (program : Program) (name : String)
        (index : Nat), d.assemble w forgiving = .ok program →
      ((∃ q, program.lookup name = .ok (index, q)) ↔ d.ResolvesCall name index) := by
  intro h
  have hok : summer.assemble (World.build .default) false = .ok summer.layout := rfl
  have hcall : summer.ResolvesCall "été" 0 :=
    (ProgramDef.resolvesCall_iff_procedure hok).2 ⟨_, rfl, by decide +kernel⟩
  obtain ⟨q, hlookup⟩ := (h _ _ _ _ _ _ hok).2 hcall
  obtain ⟨hq, hfold⟩ := (lookup_eq_ok_iff hok).1 hlookup
  cases hq
  exact absurd hfold (by decide +kernel)

end Program

end Swarm
