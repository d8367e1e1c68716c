import Mathlib.Data.List.Basic
import Mathlib.Data.List.Infix
import Mathlib.Data.List.TakeWhile

/-!
# Regular expressions

Patterns as scripts match them: the ways in which a pattern matches at a position are listed in
the order in which they are tried, and the first one counts. Repetition is of single characters
only, so every match is found by recursion on the pattern.
-/

/-- A pattern. -/
inductive Regex
  | run (ok : Char → Bool) (least : Nat) (most : Option Nat) (greedy : Bool)
  | seq (first second : Regex)
  | either (first second : Regex)
  | capture (index : Nat) (body : Regex)
  | again (index : Nat)
  | start
  | stop

namespace Regex

/-- What the groups of a pattern took, the latest first. -/
abbrev Groups := List (Nat × List Char)

/-- A way in which a pattern matches at a position. -/
structure Step where
  taken : List Char
  rest : List Char
  groups : Groups
  deriving DecidableEq

/-- The ways to take characters of a class, the fewest first. -/
def takes (ok : Char → Bool) : Option Nat → List Char → List (List Char × List Char)
  | _, [] => [([], [])]
  | most, character :: text =>
      ([], character :: text) ::
        if ok character = true ∧ most ≠ some 0 then
          (takes ok (most.map (· - 1)) text).map fun way => (character :: way.1, way.2)
        else []

/-- The ways in which a pattern matches at a position, in the order in which they are tried. -/
def steps : Regex → Bool → List Char → Groups → List Step
  | .run ok least most greedy, _, text, groups =>
      let ways := (takes ok most text).filter fun way => least ≤ way.1.length
      (if greedy then ways.reverse else ways).map fun way => ⟨way.1, way.2, groups⟩
  | .seq first second, atStart, text, groups =>
      (first.steps atStart text groups).flatMap fun step =>
        (second.steps (atStart && step.taken.isEmpty) step.rest step.groups).map fun next =>
          { next with taken := step.taken ++ next.taken }
  | .either first second, atStart, text, groups =>
      first.steps atStart text groups ++ second.steps atStart text groups
  | .capture index body, atStart, text, groups =>
      (body.steps atStart text groups).map fun step =>
        { step with groups := (index, step.taken) :: step.groups }
  | .again index, _, text, groups =>
      let taken := (groups.lookup index).getD []
      if taken.isPrefixOf text then [⟨taken, text.drop taken.length, groups⟩] else []
  | .start, atStart, text, groups => if atStart then [⟨[], text, groups⟩] else []
  | .stop, _, text, groups => if text.isEmpty then [⟨[], text, groups⟩] else []

/-- The patterns that others are made of. -/
def nothing : Regex := .run (fun _ => false) 0 (some 0) true
def one (ok : Char → Bool) : Regex := .run ok 1 (some 1) true
def char (character : Char) : Regex := one (· == character)
def many (ok : Char → Bool) : Regex := .run ok 0 none true
def many1 (ok : Char → Bool) : Regex := .run ok 1 none true
def optional (body : Regex) : Regex := .either body nothing

/-- One pattern after the other. -/
def all : List Regex → Regex
  | [] => nothing
  | [regex] => regex
  | regex :: others => .seq regex (all others)

/-- A text, word for word. -/
def literal (text : String) : Regex := all (text.toList.map char)

/-- The first match from the left, with what comes before it. -/
def find? (regex : Regex) : Bool → List Char → Option (List Char × Step)
  | atStart, [] => (regex.steps atStart [] []).head?.map fun step => ([], step)
  | atStart, character :: text =>
      match (regex.steps atStart (character :: text) []).head? with
      | some step => some ([], step)
      | none => (find? regex false text).map fun found => (character :: found.1, found.2)

/-- `String.prototype.match` with a pattern that is not global. -/
def match? (regex : Regex) (text : List Char) : Option Step := (find? regex true text).map Prod.snd

/-- `RegExp.prototype.test`. -/
def test (regex : Regex) (text : List Char) : Bool := (find? regex true text).isSome

/-- `String.prototype.replace` with a pattern that is not global. -/
def replaceFirst (regex : Regex) (write : Groups → List Char) (text : List Char) : List Char :=
  match find? regex true text with
  | some (before, step) => before ++ write step.groups ++ step.rest
  | none => text

/-- What is written from a position on, with so many characters left of the latest match. -/
def replaceFrom (regex : Regex) (write : Groups → List Char) : Bool → Nat → List Char → List Char
  | atStart, 0, [] =>
      match (regex.steps atStart [] []).head? with
      | some step => write step.groups
      | none => []
  | _, _ + 1, [] => []
  | atStart, 0, character :: text =>
      match (regex.steps atStart (character :: text) []).head? with
      | some step =>
          match step.taken.length with
          | 0 => write step.groups ++ character :: replaceFrom regex write false 0 text
          | taken + 1 => write step.groups ++ replaceFrom regex write false taken text
      | none => character :: replaceFrom regex write false 0 text
  | _, left + 1, _ :: text => replaceFrom regex write false left text

/-- `String.prototype.replace` with a global pattern. -/
def replaceAll (regex : Regex) (write : Groups → List Char) (text : List Char) : List Char :=
  replaceFrom regex write true 0 text

/-- What the groups took in the matches from a position on, with so many characters left of the
latest one. -/
def matchFrom (regex : Regex) : Bool → Nat → List Char → List Groups
  | atStart, 0, [] => ((regex.steps atStart [] []).head?.map Step.groups).toList
  | _, _ + 1, [] => []
  | atStart, 0, character :: text =>
      match (regex.steps atStart (character :: text) []).head? with
      | some step => step.groups :: matchFrom regex false (step.taken.length - 1) text
      | none => matchFrom regex false 0 text
  | _, left + 1, _ :: text => matchFrom regex false left text

/-- What the groups took in every match of a global pattern. -/
def matchAll (regex : Regex) (text : List Char) : List Groups := matchFrom regex true 0 text

/-- The pieces of a text from a position on, with so many characters left of the latest match. -/
def splitFrom (regex : Regex) : Nat → List Char → List (List Char)
  | _, [] => [[]]
  | 0, character :: text =>
      match
          ((regex.steps false (character :: text) []).head?.map fun step => step.taken.length) with
      | some (taken + 1) => [] :: splitFrom regex taken text
      | _ => (splitFrom regex 0 text).modifyHead (character :: ·)
  | left + 1, _ :: text => splitFrom regex left text

/-- `String.prototype.split` with a pattern that takes something. -/
def split (regex : Regex) (text : List Char) : List (List Char) := splitFrom regex 0 text

/-- What a group took, or nothing. -/
def group (index : Nat) (groups : Groups) : List Char := (groups.lookup index).getD []

/-- Nothing is written. -/
def erase (_ : Groups) : List Char := []

example : (char 'a').steps true ['a', 'b'] [] = [⟨['a'], ['b'], []⟩] := by
  simp [char, one, steps, takes]

section Takes

variable {ok : Char → Bool} {most : Option Nat} {text : List Char} {way : List Char × List Char}

theorem takes_spec (taken : way ∈ takes ok most text) :
    way.1 ++ way.2 = text ∧ way.1.all ok := by
  induction text generalizing most way with
  | nil =>
      rw [takes] at taken
      rw [List.mem_singleton.mp taken]
      exact ⟨rfl, rfl⟩
  | cons character text ih =>
      rw [takes] at taken
      rcases List.mem_cons.mp taken with rfl | more
      · exact ⟨rfl, rfl⟩
      · split_ifs at more with matched
        · obtain ⟨shorter, here, rfl⟩ := List.mem_map.mp more
          obtain ⟨same, each⟩ := ih here
          refine ⟨congrArg (character :: ·) same, ?_⟩
          rw [List.all_cons, matched.1, each, Bool.and_self]
        · exact absurd more List.not_mem_nil

/-- A run stops where its class ends. -/
theorem takes_of_head {rest : List Char} (most : Option Nat)
    (stops : ∀ character ∈ rest.head?, ok character = false) :
    takes ok most rest = [([], rest)] := by
  cases rest with
  | nil => rfl
  | cons character rest =>
      have unlike := stops character rfl
      rw [takes, if_neg (by simp [unlike])]

theorem takes_zero (ok : Char → Bool) (text : List Char) :
    takes ok (some 0) text = [([], text)] := by
  cases text with
  | nil => rfl
  | cons character text => rw [takes, if_neg (fun both => both.2 rfl)]

/-- The last way of a run takes all that it can. -/
theorem takes_greedy {taken rest : List Char} (each : taken.all ok = true)
    (stops : most ≠ some taken.length → ∀ character ∈ rest.head?, ok character = false)
    (bounded : ∀ bound ∈ most, taken.length ≤ bound) :
    ∃ fewer, takes ok most (taken ++ rest) = fewer ++ [(taken, rest)] := by
  induction taken generalizing most with
  | nil =>
      by_cases full : most = some 0
      · exact ⟨[], full ▸ takes_zero ok rest⟩
      · exact ⟨[], takes_of_head most (stops full)⟩
  | cons character taken ih =>
      rw [List.all_cons, Bool.and_eq_true] at each
      have notZero : most ≠ some 0 := by
        rintro rfl
        exact absurd (bounded 0 rfl) (by simp)
      have shorter : ∀ bound ∈ most.map (· - 1), taken.length ≤ bound := by
        intro bound inMost
        obtain ⟨larger, inside, rfl⟩ := Option.map_eq_some_iff.mp inMost
        have long := bounded larger inside
        rw [List.length_cons] at long
        omega
      have later : most.map (· - 1) ≠ some taken.length →
          ∀ character ∈ rest.head?, ok character = false := by
        refine fun notFull => stops fun full => notFull ?_
        rw [full]
        rfl
      obtain ⟨fewer, same⟩ := ih each.2 later shorter
      refine ⟨([], character :: (taken ++ rest)) ::
        fewer.map fun way => (character :: way.1, way.2), ?_⟩
      rw [List.cons_append, takes, if_pos ⟨each.1, notZero⟩, same]
      simp only [List.map_append, List.map_cons, List.map_nil, List.cons_append]

end Takes

section Steps

variable {regex first second : Regex} {atStart : Bool} {text : List Char} {groups : Groups}
variable {step : Step}

/-- What a run takes. -/
theorem run_spec {ok : Char → Bool} {least : Nat} {most : Option Nat} {greedy : Bool}
    (listed : step ∈ (Regex.run ok least most greedy).steps atStart text groups) :
    step.taken ++ step.rest = text ∧ step.taken.all ok = true ∧ least ≤ step.taken.length := by
  obtain ⟨way, inWays, rfl⟩ := List.mem_map.mp listed
  have among : way ∈ (takes ok most text).filter fun way => least ≤ way.1.length := by
    cases greedy with
    | true => exact List.mem_reverse.mp inWays
    | false => exact inWays
  obtain ⟨split, each⟩ := takes_spec (List.mem_of_mem_filter among)
  have long := List.of_mem_filter among
  exact ⟨split, each, of_decide_eq_true long⟩

/-- What is taken and the rest are the text. -/
theorem steps_append (listed : step ∈ regex.steps atStart text groups) :
    step.taken ++ step.rest = text := by
  induction regex generalizing atStart text groups step with
  | run ok least most greedy => exact (run_spec listed).1
  | seq first second firstHypothesis secondHypothesis =>
      obtain ⟨former, inFirst, more⟩ := List.mem_flatMap.mp listed
      obtain ⟨latter, inSecond, rfl⟩ := List.mem_map.mp more
      rw [← firstHypothesis inFirst, ← secondHypothesis inSecond, List.append_assoc]
  | either first second firstHypothesis secondHypothesis =>
      rcases List.mem_append.mp listed with inFirst | inSecond
      · exact firstHypothesis inFirst
      · exact secondHypothesis inSecond
  | capture index body ih =>
      obtain ⟨inner, inBody, rfl⟩ := List.mem_map.mp listed
      have same : inner.taken ++ inner.rest = text := ih inBody
      exact same
  | again index =>
      simp only [steps] at listed
      split_ifs at listed with isPrefix
      · rw [List.mem_singleton.mp listed]
        obtain ⟨rest, rfl⟩ := List.isPrefixOf_iff_prefix.mp isPrefix
        exact congrArg _ (List.drop_left)
      · exact absurd listed List.not_mem_nil
  | start =>
      simp only [steps] at listed
      split_ifs at listed
      · rw [List.mem_singleton.mp listed]
        rfl
      · exact absurd listed List.not_mem_nil
  | stop =>
      simp only [steps] at listed
      split_ifs at listed
      · rw [List.mem_singleton.mp listed]
        rfl
      · exact absurd listed List.not_mem_nil

/-- A sequence whose first part does not match. -/
theorem steps_seq_of_nil (fails : first.steps atStart text groups = []) :
    (Regex.seq first second).steps atStart text groups = [] := by
  rw [steps, fails, List.flatMap_nil]

/-- A sequence whose second part matches after no way of the first. -/
theorem steps_seq_of_fails
    (fails : ∀ former ∈ first.steps atStart text groups,
      second.steps (atStart && former.taken.isEmpty) former.rest former.groups = []) :
    (Regex.seq first second).steps atStart text groups = [] := by
  rw [steps, List.flatMap_eq_nil_iff]
  intro former listed
  rw [fails former listed, List.map_nil]

@[simp] theorem steps_one_cons (ok : Char → Bool) (character : Char) :
    (one ok).steps atStart (character :: text) groups =
      if ok character then [⟨[character], text, groups⟩] else [] := by
  cases matched : ok character <;> simp [one, steps, takes, takes_zero, matched]

@[simp] theorem steps_one_nil (ok : Char → Bool) :
    (one ok).steps atStart [] groups = [] := by
  simp [one, steps, takes]

@[simp] theorem steps_start : Regex.start.steps true text groups = [⟨[], text, groups⟩] := rfl

@[simp] theorem steps_nothing : nothing.steps atStart text groups = [⟨[], text, groups⟩] := by
  simp [nothing, steps, takes_zero]

/-- A run does not begin with a character of another class. -/
theorem steps_run_of_head {ok : Char → Bool} {least : Nat} {most : Option Nat} {greedy : Bool}
    {character : Char} (unlike : ok character = false) (some : 1 ≤ least) :
    (Regex.run ok least most greedy).steps atStart (character :: text) groups = [] := by
  have fewer : ¬ least ≤ 0 := by omega
  have ways : takes ok most (character :: text) = [([], character :: text)] := by
    refine takes_of_head most fun other isHead => ?_
    cases isHead
    exact unlike
  cases greedy <;> simp [steps, ways, fewer]

/-- A pattern that is tied to the start. -/
theorem find?_start_false (regex : Regex) : ∀ text : List Char,
    find? (.seq .start regex) false text = none
  | [] => rfl
  | _ :: text => by
      rw [find?, find?_start_false regex text]
      rfl

theorem match?_start (regex : Regex) (text : List Char) :
    match? (.seq .start regex) text = (regex.steps true text []).head? := by
  have same : (Regex.seq .start regex).steps true text [] = regex.steps true text [] := by
    rw [steps, steps_start, List.flatMap_singleton]
    exact List.map_id _
  cases text with
  | nil =>
      rw [match?, find?, same, Option.map_map]
      exact congrFun Option.map_id _
  | cons character text =>
      rw [match?, find?, same, find?_start_false]
      cases (regex.steps true (character :: text) []).head? <;> rfl

end Steps

/-- The first way of a pattern at a position ends before a rest, wherever the position is. -/
def Reaches (regex : Regex) (text : List Char) (groups : Groups) (rest : List Char)
    (after : Groups) : Prop :=
  ∀ atStart, ∃ taken, (regex.steps atStart text groups).head? = some ⟨taken, rest, after⟩

section Reaches

variable {regex first second : Regex} {text rest taken middle : List Char}
variable {groups between after : Groups}

theorem Reaches.seq (former : first.Reaches text groups middle between)
    (latter : second.Reaches middle between rest after) :
    (Regex.seq first second).Reaches text groups rest after := by
  intro atStart
  obtain ⟨taken, head⟩ := former atStart
  obtain ⟨more, next⟩ := latter (atStart && taken.isEmpty)
  obtain ⟨others, same⟩ := List.head?_eq_some_iff.mp head
  obtain ⟨nextOthers, nextSame⟩ := List.head?_eq_some_iff.mp next
  refine ⟨taken ++ more, ?_⟩
  rw [steps, same, List.flatMap_cons, nextSame]
  rfl

theorem reaches_all_cons {others : List Regex} (former : first.Reaches text groups middle between)
    (latter : (all (second :: others)).Reaches middle between rest after) :
    (all (first :: second :: others)).Reaches text groups rest after :=
  former.seq latter

theorem Reaches.capture {index : Nat} (reaches : regex.Reaches (taken ++ rest) groups rest after) :
    (Regex.capture index regex).Reaches (taken ++ rest) groups rest ((index, taken) :: after) := by
  intro atStart
  obtain ⟨others, head⟩ := reaches atStart
  have same : others ++ rest = taken ++ rest := steps_append (List.mem_of_mem_head? head)
  rw [List.append_left_inj] at same
  refine ⟨others, ?_⟩
  rw [steps, List.head?_map, head, ← same]
  rfl

theorem Reaches.either (former : first.Reaches text groups rest after) :
    (Regex.either first second).Reaches text groups rest after := by
  intro atStart
  obtain ⟨taken, head⟩ := former atStart
  refine ⟨taken, ?_⟩
  rw [steps, List.head?_append, head]
  rfl

/-- A greedy run ends where its class does. -/
theorem reaches_run {ok : Char → Bool} {least : Nat} {most : Option Nat}
    (each : taken.all ok = true)
    (stops : most ≠ some taken.length → ∀ character ∈ rest.head?, ok character = false)
    (enough : least ≤ taken.length) (bounded : ∀ bound ∈ most, taken.length ≤ bound) :
    (Regex.run ok least most true).Reaches (taken ++ rest) groups rest groups := by
  intro atStart
  obtain ⟨fewer, same⟩ := takes_greedy each stops bounded
  refine ⟨taken, ?_⟩
  simp only [steps, if_true, same, List.filter_append, List.filter_singleton, enough, decide_true,
    List.reverse_append, List.map_append]
  rfl

theorem reaches_one {ok : Char → Bool} {character : Char} (matched : ok character = true) :
    (one ok).Reaches (character :: rest) groups rest groups := by
  intro atStart
  exact ⟨[character], by rw [steps_one_cons, if_pos matched]; rfl⟩

theorem reaches_char (character : Char) :
    (char character).Reaches (character :: rest) groups rest groups :=
  reaches_one (beq_self_eq_true character)

theorem reaches_stop : Regex.stop.Reaches [] groups [] groups := fun _ => ⟨[], rfl⟩

/-- A pattern that is tied to the start, at the start. -/
theorem match?_of_reaches (reaches : regex.Reaches text [] rest after) :
    ∃ taken, match? (.seq .start regex) text = some ⟨taken, rest, after⟩ := by
  obtain ⟨taken, head⟩ := reaches true
  exact ⟨taken, (match?_start regex text).trans head⟩

end Reaches

/-- Every match takes characters of a class only. -/
def Within (regex : Regex) (ok : Char → Bool) : Prop :=
  ∀ atStart text groups, ∀ step ∈ regex.steps atStart text groups, step.taken.all ok = true

/-- Every match takes a character of a class first. -/
def Leads (regex : Regex) (ok : Char → Bool) : Prop :=
  ∀ atStart text groups, ∀ step ∈ regex.steps atStart text groups,
    ∃ character others, step.taken = character :: others ∧ ok character = true

section Leads

variable {regex first second : Regex} {ok next : Char → Bool}

theorem within_run (least : Nat) (most : Option Nat) (greedy : Bool) :
    (Regex.run ok least most greedy).Within ok :=
  fun _ _ _ _ listed => (run_spec listed).2.1

theorem Within.capture {index : Nat} (within : regex.Within ok) :
    (Regex.capture index regex).Within ok := by
  intro atStart text groups step listed
  obtain ⟨inner, inBody, rfl⟩ := List.mem_map.mp listed
  exact within _ _ _ inner inBody

theorem Within.seq (former : first.Within ok) (latter : second.Within ok) :
    (Regex.seq first second).Within ok := by
  intro atStart text groups step listed
  obtain ⟨before, inFirst, more⟩ := List.mem_flatMap.mp listed
  obtain ⟨behind, inSecond, rfl⟩ := List.mem_map.mp more
  rw [List.all_append, former _ _ _ before inFirst, latter _ _ _ behind inSecond, Bool.and_self]

theorem Within.either (former : first.Within ok) (latter : second.Within ok) :
    (Regex.either first second).Within ok := by
  intro atStart text groups step listed
  rcases List.mem_append.mp listed with inFirst | inSecond
  · exact former _ _ _ step inFirst
  · exact latter _ _ _ step inSecond

theorem Within.mono (within : regex.Within ok)
    (wider : ∀ character, ok character = true → next character = true) : regex.Within next := by
  intro atStart text groups step listed
  have each := List.all_eq_true.mp (within _ _ _ step listed)
  exact List.all_eq_true.mpr fun character taken => wider character (each character taken)

/-- A pattern for a whole text does not match a text with other characters. -/
theorem match?_whole {character : Char} {text : List Char} (within : first.Within ok)
    (inText : character ∈ text) (other : ok character = false) :
    match? (.seq .start (.seq first .stop)) text = none := by
  rw [match?_start, List.head?_eq_none_iff]
  refine List.eq_nil_iff_forall_not_mem.mpr fun step listed => ?_
  obtain ⟨before, inFirst, more⟩ := List.mem_flatMap.mp listed
  obtain ⟨behind, inStop, -⟩ := List.mem_map.mp more
  have each := within _ _ _ before inFirst
  have split := steps_append inFirst
  rw [steps] at inStop
  split_ifs at inStop with ended
  · rw [List.isEmpty_iff.mp ended, List.append_nil] at split
    rw [split, List.all_eq_true] at each
    rw [each character inText] at other
    exact Bool.false_ne_true other.symm
  · exact absurd inStop List.not_mem_nil

theorem leads_run {least : Nat} {most : Option Nat} {greedy : Bool} (some : 1 ≤ least) :
    (Regex.run ok least most greedy).Leads ok := by
  intro atStart text groups step listed
  obtain ⟨-, each, long⟩ := run_spec listed
  cases taken : step.taken with
  | nil =>
      rw [taken, List.length_nil] at long
      omega
  | cons character others =>
      rw [taken, List.all_cons, Bool.and_eq_true] at each
      exact ⟨character, others, rfl, each.1⟩

theorem leads_one (ok : Char → Bool) : (one ok).Leads ok := leads_run (le_refl 1)

theorem Leads.seq (leads : first.Leads ok) : (Regex.seq first second).Leads ok := by
  intro atStart text groups step listed
  obtain ⟨former, inFirst, more⟩ := List.mem_flatMap.mp listed
  obtain ⟨latter, -, rfl⟩ := List.mem_map.mp more
  obtain ⟨character, others, same, matched⟩ := leads _ _ _ former inFirst
  exact ⟨character, others ++ latter.taken, by rw [same, List.cons_append], matched⟩

theorem Leads.capture {index : Nat} (leads : regex.Leads ok) :
    (Regex.capture index regex).Leads ok := by
  intro atStart text groups step listed
  obtain ⟨inner, inBody, rfl⟩ := List.mem_map.mp listed
  exact leads _ _ _ inner inBody

theorem Leads.either (former : first.Leads ok) (latter : second.Leads ok) :
    (Regex.either first second).Leads ok := by
  intro atStart text groups step listed
  rcases List.mem_append.mp listed with inFirst | inSecond
  · exact former _ _ _ step inFirst
  · exact latter _ _ _ step inSecond

theorem Leads.mono (leads : regex.Leads ok)
    (wider : ∀ character, ok character = true → next character = true) : regex.Leads next := by
  intro atStart text groups step listed
  obtain ⟨character, others, same, matched⟩ := leads _ _ _ step listed
  exact ⟨character, others, same, wider character matched⟩

/-- A pattern does not match at the start of a text that begins otherwise. -/
theorem match?_of_leads {character : Char} {text : List Char} (leads : regex.Leads ok)
    (unlike : ok character = false) : match? (.seq .start regex) (character :: text) = none := by
  rw [match?_start, List.head?_eq_none_iff]
  refine List.eq_nil_iff_forall_not_mem.mpr fun step listed => ?_
  obtain ⟨first, others, same, matched⟩ := leads _ _ _ step listed
  have split := steps_append listed
  rw [same, List.cons_append] at split
  rw [(List.cons.inj split).1, unlike] at matched
  exact Bool.false_ne_true matched

theorem test_eq_isSome (regex : Regex) (text : List Char) :
    test regex text = (match? regex text).isSome := by
  rw [test, match?, Option.isSome_map]

/-- After characters of one class, a first character of another. -/
theorem dropWhile_of_steps {atStart : Bool} {text : List Char} {groups : Groups} {step : Step}
    (within : first.Within ok) (leads : second.Leads next)
    (unlike : ∀ character, next character = true → ok character = false)
    (listed : step ∈ (Regex.seq first second).steps atStart text groups) :
    ∃ character rest, text.dropWhile ok = character :: rest ∧ next character = true := by
  obtain ⟨former, inFirst, more⟩ := List.mem_flatMap.mp listed
  obtain ⟨latter, inSecond, -⟩ := List.mem_map.mp more
  have each := within _ _ _ former inFirst
  obtain ⟨character, others, same, matched⟩ := leads _ _ _ latter inSecond
  refine ⟨character, others ++ latter.rest, ?_, matched⟩
  rw [← steps_append inFirst, List.dropWhile_append_of_pos (List.all_eq_true.mp each),
    ← steps_append inSecond, same, List.cons_append,
    List.dropWhile_cons_of_neg (by simp [unlike character matched])]

/-- Nor does a pattern that skips characters of a class, where what it finds then is another. -/
theorem match?_of_within {character : Char} {text rest : List Char} (within : first.Within ok)
    (leads : second.Leads next) (unlike : ∀ character, next character = true → ok character = false)
    (shape : text.dropWhile ok = character :: rest) (other : next character = false) :
    match? (.seq .start (.seq first second)) text = none := by
  rw [match?_start, List.head?_eq_none_iff]
  refine List.eq_nil_iff_forall_not_mem.mpr fun step listed => ?_
  obtain ⟨found, others, same, matched⟩ := dropWhile_of_steps within leads unlike listed
  rw [shape] at same
  rw [← (List.cons.inj same).1, other] at matched
  exact Bool.false_ne_true matched

end Leads

/-- Every match takes a character of a class. -/
def Needs (regex : Regex) (needed : Char → Bool) : Prop :=
  ∀ atStart text groups, ∀ step ∈ regex.steps atStart text groups,
    ∃ character ∈ step.taken, needed character = true

section Needs

variable {regex first second : Regex} {needed : Char → Bool}

theorem needs_run {ok : Char → Bool} {least : Nat} {most : Option Nat} {greedy : Bool}
    (some : 1 ≤ least) (only : ∀ character, ok character = true → needed character = true) :
    (Regex.run ok least most greedy).Needs needed := by
  intro atStart text groups step listed
  obtain ⟨-, each, long⟩ := run_spec listed
  obtain ⟨character, taken⟩ := List.exists_mem_of_length_pos (by omega : 0 < step.taken.length)
  exact ⟨character, taken, only character (List.all_eq_true.mp each character taken)⟩

theorem needs_char (character : Char) : (char character).Needs (· == character) :=
  needs_run (le_refl 1) fun _ same => same

theorem Needs.seq (needs : first.Needs needed) : (Regex.seq first second).Needs needed := by
  intro atStart text groups step listed
  obtain ⟨former, inFirst, more⟩ := List.mem_flatMap.mp listed
  obtain ⟨latter, -, rfl⟩ := List.mem_map.mp more
  obtain ⟨character, taken, isNeeded⟩ := needs _ _ _ former inFirst
  exact ⟨character, List.mem_append_left _ taken, isNeeded⟩

theorem Needs.after (needs : second.Needs needed) : (Regex.seq first second).Needs needed := by
  intro atStart text groups step listed
  obtain ⟨former, -, more⟩ := List.mem_flatMap.mp listed
  obtain ⟨latter, inSecond, rfl⟩ := List.mem_map.mp more
  obtain ⟨character, taken, isNeeded⟩ := needs _ _ _ latter inSecond
  exact ⟨character, List.mem_append_right _ taken, isNeeded⟩

/-- What follows a match that takes something is shorter. -/
theorem length_rest_of_match? {text : List Char} {step : Step} (needs : regex.Needs needed)
    (found : match? (.seq .start regex) text = some step) : step.rest.length < text.length := by
  rw [match?_start] at found
  have listed := List.mem_of_mem_head? found
  obtain ⟨character, taken, -⟩ := needs _ _ _ step listed
  have some := List.length_pos_of_mem taken
  rw [← steps_append listed, List.length_append]
  omega

/-- Without a needed character there is no match. -/
theorem find?_of_needs (needs : regex.Needs needed) :
    ∀ {text : List Char} (atStart : Bool),
      (∀ character ∈ text, needed character = false) → find? regex atStart text = none
  | [], atStart, _ => by
      have fails : regex.steps atStart [] [] = [] := by
        refine List.eq_nil_iff_forall_not_mem.mpr fun step listed => ?_
        obtain ⟨character, taken, -⟩ := needs _ _ _ step listed
        have same := (List.append_eq_nil_iff.mp (steps_append listed)).1
        exact absurd taken (same ▸ List.not_mem_nil)
      rw [find?, fails]
      rfl
  | character :: text, atStart, absent => by
      have fails : regex.steps atStart (character :: text) [] = [] := by
        refine List.eq_nil_iff_forall_not_mem.mpr fun step listed => ?_
        obtain ⟨other, taken, isNeeded⟩ := needs _ _ _ step listed
        have inText : other ∈ character :: text := by
          rw [← steps_append listed]
          exact List.mem_append_left _ taken
        exact absurd (absent other inText) (by rw [isNeeded]; exact Bool.noConfusion)
      rw [find?, fails, List.head?_nil,
        find?_of_needs needs false (List.forall_mem_cons.mp absent).2]
      rfl

end Needs

section Replace

variable {regex : Regex} {write : Groups → List Char}

theorem find?_cons_eq_none {atStart : Bool} {character : Char} {text : List Char} :
    find? regex atStart (character :: text) = none ↔
      (regex.steps atStart (character :: text) []).head? = none ∧
        find? regex false text = none := by
  rw [find?]
  cases (regex.steps atStart (character :: text) []).head? with
  | none => simp
  | some step => simp

/-- Nothing is replaced where nothing matches. -/
theorem replaceFrom_of_find? : ∀ {text : List Char} {atStart : Bool},
    find? regex atStart text = none → replaceFrom regex write atStart 0 text = text
  | [], atStart, absent => by
      rw [find?, Option.map_eq_none_iff] at absent
      rw [replaceFrom, absent]
  | character :: text, atStart, absent => by
      obtain ⟨here, later⟩ := find?_cons_eq_none.mp absent
      rw [replaceFrom, here]
      exact congrArg _ (replaceFrom_of_find? later)

theorem matchFrom_of_find? : ∀ {text : List Char} {atStart : Bool},
    find? regex atStart text = none → matchFrom regex atStart 0 text = []
  | [], atStart, absent => by
      rw [find?, Option.map_eq_none_iff] at absent
      rw [matchFrom, absent]
      rfl
  | character :: text, atStart, absent => by
      obtain ⟨here, later⟩ := find?_cons_eq_none.mp absent
      rw [matchFrom, here]
      exact matchFrom_of_find? later

theorem replaceAll_of_find? {text : List Char} (absent : find? regex true text = none) :
    replaceAll regex write text = text :=
  replaceFrom_of_find? absent

theorem replaceFirst_of_find? {text : List Char} (absent : find? regex true text = none) :
    replaceFirst regex write text = text := by
  rw [replaceFirst, absent]

/-- A pattern that takes one character of a class. -/
theorem replaceAll_single {ok : Char → Bool} {found : Char → Groups}
    (single : ∀ atStart character text, regex.steps atStart (character :: text) [] =
      if ok character then [⟨[character], text, found character⟩] else [])
    (nothing : ∀ atStart, regex.steps atStart [] [] = []) (text : List Char) :
    replaceAll regex write text =
      text.flatMap fun character =>
        if ok character then write (found character) else [character] := by
  have fromAny (atStart : Bool) : replaceFrom regex write atStart 0 text =
      text.flatMap fun character =>
        if ok character then write (found character) else [character] := by
    induction text generalizing atStart with
    | nil =>
        rw [replaceFrom, nothing]
        rfl
    | cons character text ih =>
        rw [replaceFrom, single, List.flatMap_cons]
        cases ok character with
        | true => exact congrArg _ (ih false)
        | false => exact congrArg _ (ih false)
  exact fromAny true

/-- Less of a class is written than was taken. -/
def Lightens (regex : Regex) (write : Groups → List Char) (weigh : Char → Bool) : Prop :=
  ∀ atStart text, ∀ step ∈ regex.steps atStart text [],
    (write step.groups).countP weigh < step.taken.countP weigh

/-- What is written was taken, and some of the characters of a class are left out. -/
def Drops (regex : Regex) (write : Groups → List Char) (weigh : Char → Bool) : Prop :=
  ∀ atStart text, ∀ step ∈ regex.steps atStart text [],
    (write step.groups).Sublist step.taken ∧
      (write step.groups).countP weigh < step.taken.countP weigh

variable {weigh : Char → Bool}

theorem Drops.lightens (drops : regex.Drops write weigh) : regex.Lightens write weigh :=
  fun atStart text step listed => (drops atStart text step listed).2

/-- What is replaced from a position on. -/
theorem replaceFrom_cons {atStart : Bool} {character : Char} {text : List Char} {step : Step}
    (lightens : regex.Lightens write weigh)
    (head : (regex.steps atStart (character :: text) []).head? = some step) :
    ∃ left, replaceFrom regex write atStart 0 (character :: text) =
        write step.groups ++ replaceFrom regex write false left text ∧
      character :: text = step.taken ++ text.drop left := by
  have listed : step ∈ regex.steps atStart (character :: text) [] := List.mem_of_mem_head? head
  have less := lightens _ _ step listed
  have same := steps_append listed
  cases shape : step.taken with
  | nil =>
      rw [shape, List.countP_nil] at less
      exact absurd less (Nat.not_lt_zero _)
  | cons first others =>
      refine ⟨others.length, ?_, ?_⟩
      · rw [replaceFrom, head]
        simp only [shape, List.length_cons]
      · rw [shape] at same
        obtain ⟨rfl, tail⟩ := List.cons.inj same
        rw [← tail, List.append_eq, List.drop_left, List.cons_append]

/-- A pattern that lightens does not match at the end of a text. -/
theorem Lightens.head?_nil (lightens : regex.Lightens write weigh) (atStart : Bool) :
    (regex.steps atStart [] []).head? = none := by
  cases head : (regex.steps atStart [] []).head? with
  | none => rfl
  | some step =>
      have listed : step ∈ regex.steps atStart [] [] := List.mem_of_mem_head? head
      have less := lightens _ _ step listed
      rw [(List.append_eq_nil_iff.mp (steps_append listed)).1] at less
      exact absurd less (Nat.not_lt_zero _)

/-- No more of the class is left, and less if anything matched. -/
theorem countP_replaceFrom (lightens : regex.Lightens write weigh) :
    ∀ (text : List Char) (atStart : Bool) (left : Nat),
      (replaceFrom regex write atStart left text).countP weigh ≤ (text.drop left).countP weigh ∧
        (left = 0 → find? regex atStart text ≠ none →
          (replaceFrom regex write atStart left text).countP weigh < text.countP weigh)
  | [], atStart, 0 => by
      rw [replaceFrom, find?, lightens.head?_nil]
      exact ⟨Nat.le_refl _, fun _ found => absurd rfl found⟩
  | [], atStart, left + 1 => by
      rw [replaceFrom, List.drop_nil]
      exact ⟨Nat.le_refl _, fun isZero => absurd isZero (Nat.succ_ne_zero left)⟩
  | character :: text, atStart, left + 1 => by
      rw [replaceFrom]
      exact ⟨(countP_replaceFrom lightens text false left).1,
        fun isZero => absurd isZero (Nat.succ_ne_zero left)⟩
  | character :: text, atStart, 0 => by
      cases head : (regex.steps atStart (character :: text) []).head? with
      | none =>
          obtain ⟨notMore, less⟩ := countP_replaceFrom lightens text false 0
          rw [replaceFrom, head]
          simp only [List.drop_zero, List.countP_cons] at notMore ⊢
          refine ⟨by omega, fun _ found => ?_⟩
          have later : find? regex false text ≠ none :=
            fun absent => found (find?_cons_eq_none.mpr ⟨head, absent⟩)
          have fewer := less rfl later
          omega
      | some step =>
          obtain ⟨left, same, split⟩ := replaceFrom_cons lightens head
          have fewer := lightens _ _ step (List.mem_of_mem_head? head)
          have notMore := (countP_replaceFrom lightens text false left).1
          rw [List.drop_zero, same, split, List.countP_append, List.countP_append]
          exact ⟨by omega, fun _ _ => by omega⟩

/-- What is left is part of the text. -/
theorem replaceFrom_sublist (drops : regex.Drops write weigh) :
    ∀ (text : List Char) (atStart : Bool) (left : Nat),
      (replaceFrom regex write atStart left text).Sublist (text.drop left)
  | [], atStart, 0 => by
      rw [replaceFrom, drops.lightens.head?_nil]
      exact .refl _
  | [], atStart, left + 1 => by
      rw [replaceFrom]
      exact List.nil_sublist _
  | character :: text, atStart, left + 1 => by
      rw [replaceFrom]
      exact replaceFrom_sublist drops text false left
  | character :: text, atStart, 0 => by
      cases head : (regex.steps atStart (character :: text) []).head? with
      | none =>
          rw [replaceFrom, head]
          exact (replaceFrom_sublist drops text false 0).cons_cons character
      | some step =>
          obtain ⟨left, same, split⟩ := replaceFrom_cons drops.lightens head
          have sublist := (drops _ _ step (List.mem_of_mem_head? head)).1
          rw [same, List.drop_zero, split]
          exact sublist.append (replaceFrom_sublist drops text false left)

theorem replaceAll_sublist (drops : regex.Drops write weigh) (text : List Char) :
    (replaceAll regex write text).Sublist text :=
  replaceFrom_sublist drops text true 0

theorem countP_replaceAll_le (lightens : regex.Lightens write weigh) (text : List Char) :
    (replaceAll regex write text).countP weigh ≤ text.countP weigh :=
  (countP_replaceFrom lightens text true 0).1

/-- A replacement that leaves all of a class replaces nothing. -/
theorem find?_of_countP_replaceAll (lightens : regex.Lightens write weigh) {text : List Char}
    (all : text.countP weigh ≤ (replaceAll regex write text).countP weigh) :
    find? regex true text = none := by
  by_contra found
  have fewer := (countP_replaceFrom lightens text true 0).2 rfl found
  exact absurd fewer (Nat.not_lt.mpr all)

end Replace

/-- No match changes what the groups took. -/
def Keeps (regex : Regex) : Prop :=
  ∀ atStart text groups, ∀ step ∈ regex.steps atStart text groups, step.groups = groups

/-- Every match leaves a group with characters of a class only. -/
def Fills (regex : Regex) (index : Nat) (ok : Char → Bool) : Prop :=
  ∀ atStart text groups, ∀ step ∈ regex.steps atStart text groups,
    (group index step.groups).all ok = true

section Groups

variable {regex first second : Regex} {index : Nat} {ok : Char → Bool}

theorem keeps_run (ok : Char → Bool) (least : Nat) (most : Option Nat) (greedy : Bool) :
    (Regex.run ok least most greedy).Keeps := by
  intro atStart text groups step listed
  obtain ⟨way, -, rfl⟩ := List.mem_map.mp listed
  rfl

theorem keeps_stop : Regex.stop.Keeps := by
  intro atStart text groups step listed
  rw [steps] at listed
  split_ifs at listed
  · rw [List.mem_singleton.mp listed]
  · exact absurd listed List.not_mem_nil

theorem Keeps.seq (former : first.Keeps) (latter : second.Keeps) :
    (Regex.seq first second).Keeps := by
  intro atStart text groups step listed
  obtain ⟨before, inFirst, more⟩ := List.mem_flatMap.mp listed
  obtain ⟨behind, inSecond, rfl⟩ := List.mem_map.mp more
  exact (latter _ _ _ behind inSecond).trans (former _ _ _ before inFirst)

theorem keeps_all : ∀ {regexes : List Regex}, (∀ regex ∈ regexes, regex.Keeps) →
    (all regexes).Keeps
  | [], _ => keeps_run _ _ _ _
  | [regex], each => each regex List.mem_cons_self
  | regex :: _ :: _, each =>
      (each regex List.mem_cons_self).seq
        (keeps_all fun later listed => each later (List.mem_cons_of_mem _ listed))

theorem keeps_literal (text : String) : (literal text).Keeps := by
  refine keeps_all fun regex listed => ?_
  obtain ⟨character, -, rfl⟩ := List.mem_map.mp listed
  exact keeps_run _ _ _ _

theorem group_cons (index : Nat) (taken : List Char) (groups : Groups) :
    group index ((index, taken) :: groups) = taken := by
  rw [group, List.lookup_cons_self, Option.getD_some]

theorem fills_capture (within : regex.Within ok) : (Regex.capture index regex).Fills index ok := by
  intro atStart text groups step listed
  obtain ⟨inner, inBody, rfl⟩ := List.mem_map.mp listed
  rw [group_cons]
  exact within _ _ _ inner inBody

theorem Fills.after (fills : second.Fills index ok) :
    (Regex.seq first second).Fills index ok := by
  intro atStart text groups step listed
  obtain ⟨former, -, more⟩ := List.mem_flatMap.mp listed
  obtain ⟨latter, inSecond, rfl⟩ := List.mem_map.mp more
  exact fills _ _ _ latter inSecond

theorem Fills.before (fills : first.Fills index ok) (keeps : second.Keeps) :
    (Regex.seq first second).Fills index ok := by
  intro atStart text groups step listed
  obtain ⟨former, inFirst, more⟩ := List.mem_flatMap.mp listed
  obtain ⟨latter, inSecond, rfl⟩ := List.mem_map.mp more
  rw [keeps _ _ _ latter inSecond]
  exact fills _ _ _ former inFirst

theorem Fills.of_match? {text : List Char} {step : Step} (fills : regex.Fills index ok)
    (found : match? (.seq .start regex) text = some step) :
    (group index step.groups).all ok = true := by
  rw [match?_start] at found
  exact fills _ _ _ step (List.mem_of_mem_head? found)

end Groups

section Drops

variable {regex first second third : Regex} {weigh needed : Char → Bool}

theorem Needs.mono (needs : regex.Needs needed)
    (wider : ∀ character, needed character = true → weigh character = true) :
    regex.Needs weigh := by
  intro atStart text groups step listed
  obtain ⟨character, taken, isNeeded⟩ := needs _ _ _ step listed
  exact ⟨character, taken, wider character isNeeded⟩

theorem needs_literal {text : String} {character : Char}
    (first : text.toList.head? = some character) : (literal text).Needs (· == character) := by
  obtain ⟨rest, shape⟩ := List.head?_eq_some_iff.mp first
  rw [literal, shape]
  cases rest with
  | nil => exact needs_char character
  | cons other rest => exact (needs_char character).seq

theorem Needs.countP_pos {atStart : Bool} {text : List Char} {groups : Groups} {step : Step}
    (needs : regex.Needs weigh) (listed : step ∈ regex.steps atStart text groups) :
    0 < step.taken.countP weigh := by
  obtain ⟨character, taken, heavy⟩ := needs _ _ _ step listed
  exact List.countP_pos_iff.mpr ⟨character, taken, heavy⟩

/-- What is matched is erased. -/
theorem drops_erase (needs : regex.Needs weigh) : regex.Drops erase weigh :=
  fun _ _ _ listed => ⟨List.nil_sublist _, needs.countP_pos listed⟩

/-- What stands after a group is erased. -/
theorem drops_after (keeps : second.Keeps) (needs : second.Needs weigh) :
    (Regex.seq (.capture 1 first) second).Drops (group 1) weigh := by
  intro atStart text step listed
  obtain ⟨former, inFirst, more⟩ := List.mem_flatMap.mp listed
  obtain ⟨latter, inSecond, rfl⟩ := List.mem_map.mp more
  obtain ⟨inner, -, rfl⟩ := List.mem_map.mp inFirst
  have heavy := needs.countP_pos inSecond
  have taken : group 1 latter.groups = inner.taken := by
    rw [keeps _ _ _ latter inSecond, group_cons]
  refine ⟨?_, ?_⟩
  · simp only [taken]
    exact List.sublist_append_left _ _
  · simp only [taken, List.countP_append]
    omega

/-- What stands around a group is erased. -/
theorem drops_between (needs : first.Needs weigh) (keeps : third.Keeps) :
    (Regex.seq first (.seq (.capture 1 second) third)).Drops (group 1) weigh := by
  intro atStart text step listed
  obtain ⟨former, inFirst, more⟩ := List.mem_flatMap.mp listed
  obtain ⟨rest, inRest, rfl⟩ := List.mem_map.mp more
  obtain ⟨captured, inSecond, last⟩ := List.mem_flatMap.mp inRest
  obtain ⟨latter, inThird, rfl⟩ := List.mem_map.mp last
  obtain ⟨inner, -, rfl⟩ := List.mem_map.mp inSecond
  have heavy := needs.countP_pos inFirst
  have taken : group 1 latter.groups = inner.taken := by
    rw [keeps _ _ _ latter inThird, group_cons]
  refine ⟨?_, ?_⟩
  · simp only [taken]
    exact (List.sublist_append_left _ _).trans (List.sublist_append_right _ _)
  · simp only [taken, List.countP_append]
    omega

end Drops

/-- A function that only leaves characters out, and of a class some unless it changes nothing. -/
structure Thins (weigh : Char → Bool) (thin : List Char → List Char) : Prop where
  sublist : ∀ text, (thin text).Sublist text
  fixed : ∀ text, text.countP weigh ≤ (thin text).countP weigh → thin text = text

section Thins

variable {regex : Regex} {write : Groups → List Char} {weigh : Char → Bool} {text : List Char}

theorem thins_replaceAll (drops : regex.Drops write weigh) :
    Thins weigh (replaceAll regex write) where
  sublist := replaceAll_sublist drops
  fixed := fun _ all => replaceAll_of_find? (find?_of_countP_replaceAll drops.lightens all)

/-- A replacement changes nothing exactly where nothing matches. -/
theorem replaceAll_eq_iff (drops : regex.Drops write weigh) :
    replaceAll regex write text = text ↔ test regex text = false := by
  rw [test, Option.isSome_eq_false_iff, Option.isNone_iff_eq_none]
  constructor
  · intro same
    exact find?_of_countP_replaceAll drops.lightens (le_of_eq (congrArg _ same.symm))
  · exact replaceAll_of_find?

/-- A match with what comes before it. -/
theorem find?_spec : ∀ {text : List Char} {atStart : Bool} {found : List Char × Step},
    find? regex atStart text = some found →
      (∃ atStart suffix, found.2 ∈ regex.steps atStart suffix []) ∧
        text = found.1 ++ (found.2.taken ++ found.2.rest)
  | [], atStart, found, isFound => by
      rw [find?, Option.map_eq_some_iff] at isFound
      obtain ⟨step, isHead, rfl⟩ := isFound
      have listed := List.mem_of_mem_head? isHead
      exact ⟨⟨_, _, listed⟩, (steps_append listed).symm⟩
  | character :: text, atStart, found, isFound => by
      rw [find?] at isFound
      split at isFound
      · rename_i step isHead
        cases isFound
        have listed := List.mem_of_mem_head? isHead
        exact ⟨⟨_, _, listed⟩, (steps_append listed).symm⟩
      · obtain ⟨later, isLater, rfl⟩ := Option.map_eq_some_iff.mp isFound
        obtain ⟨matched, split⟩ := find?_spec isLater
        exact ⟨matched, congrArg (character :: ·) split⟩

theorem replaceFirst_spec (drops : regex.Drops write weigh) (text : List Char) :
    (replaceFirst regex write text).Sublist text ∧
      (find? regex true text ≠ none →
        (replaceFirst regex write text).countP weigh < text.countP weigh) := by
  rw [replaceFirst]
  cases isFound : find? regex true text with
  | none => exact ⟨.refl _, fun found => absurd rfl found⟩
  | some found =>
      obtain ⟨⟨atStart, suffix, listed⟩, split⟩ := find?_spec isFound
      obtain ⟨sublist, fewer⟩ := drops _ _ _ listed
      simp only [List.append_assoc]
      refine ⟨?_, fun _ => ?_⟩
      · conv_rhs => rw [split]
        exact (sublist.append (.refl _)).append_left _
      · conv_rhs => rw [split]
        simp only [List.countP_append]
        omega

theorem replaceFirst_eq_iff (drops : regex.Drops write weigh) :
    replaceFirst regex write text = text ↔ test regex text = false := by
  rw [test, Option.isSome_eq_false_iff, Option.isNone_iff_eq_none]
  constructor
  · intro same
    by_contra found
    have fewer := (replaceFirst_spec drops text).2 found
    rw [same] at fewer
    exact absurd fewer (Nat.lt_irrefl _)
  · exact replaceFirst_of_find?

theorem thins_replaceFirst (drops : regex.Drops write weigh) :
    Thins weigh (replaceFirst regex write) where
  sublist := fun text => (replaceFirst_spec drops text).1
  fixed := by
    intro text all
    refine replaceFirst_of_find? (by_contra fun found => ?_)
    exact absurd ((replaceFirst_spec drops text).2 found) (Nat.not_lt.mpr all)

/-- Stages one after the other only leave characters out. -/
theorem foldl_sublist : ∀ {stages : List (List Char → List Char)} {text : List Char},
    (∀ stage ∈ stages, Thins weigh stage) →
      (stages.foldl (fun text stage => stage text) text).Sublist text
  | [], _, _ => .refl _
  | stage :: stages, text, each => by
      obtain ⟨first, others⟩ := List.forall_mem_cons.mp each
      exact (foldl_sublist others).trans (first.sublist text)

/-- Where none of a class is left out, no stage changes anything. -/
theorem fixed_of_foldl : ∀ {stages : List (List Char → List Char)} {text : List Char},
    (∀ stage ∈ stages, Thins weigh stage) →
      text.countP weigh ≤ (stages.foldl (fun text stage => stage text) text).countP weigh →
        ∀ stage ∈ stages, stage text = text
  | [], _, _, _ => List.forall_mem_nil _
  | stage :: stages, text, each, all => by
      obtain ⟨first, others⟩ := List.forall_mem_cons.mp each
      have later :
          (stages.foldl (fun text stage => stage text) (stage text)).Sublist (stage text) :=
        foldl_sublist others
      have same := first.fixed text (all.trans later.countP_le)
      rw [List.foldl_cons, same] at all
      exact List.forall_mem_cons.mpr ⟨same, fixed_of_foldl others all⟩

/-- Stages that change nothing do nothing together. -/
theorem foldl_of_fixed {stages : List (List Char → List Char)}
    (each : ∀ stage ∈ stages, stage text = text) :
    stages.foldl (fun text stage => stage text) text = text := by
  induction stages with
  | nil => rfl
  | cons stage stages ih =>
      obtain ⟨first, others⟩ := List.forall_mem_cons.mp each
      rw [List.foldl_cons, first]
      exact ih others

end Thins

section Test

/-- A pattern is found where it matches at some position. -/
theorem find?_isSome_iff (regex : Regex) : ∀ (text : List Char) (atStart : Bool),
    (find? regex atStart text).isSome = true ↔
      ∃ front rest, text = front ++ rest ∧ regex.steps (atStart && front.isEmpty) rest [] ≠ []
  | [], atStart => by
      rw [find?, Option.isSome_map, List.isSome_head?]
      constructor
      · exact fun some => ⟨[], [], rfl, by simpa using some⟩
      · rintro ⟨front, rest, split, some⟩
        obtain ⟨rfl, rfl⟩ := List.append_eq_nil_iff.mp split.symm
        simpa using some
  | character :: text, atStart => by
      have apart : (∃ front rest, character :: text = front ++ rest ∧
            regex.steps (atStart && front.isEmpty) rest [] ≠ []) ↔
          regex.steps atStart (character :: text) [] ≠ [] ∨
            ∃ front rest, text = front ++ rest ∧ regex.steps false rest [] ≠ [] := by
        constructor
        · rintro ⟨_ | ⟨first, front⟩, rest, split, some⟩
          · rw [List.nil_append] at split
            exact .inl (by simpa [split] using some)
          · obtain ⟨rfl, same⟩ := List.cons.inj split
            exact .inr ⟨front, rest, same, by simpa using some⟩
        · rintro (here | ⟨front, rest, rfl, some⟩)
          · exact ⟨[], _, rfl, by simpa using here⟩
          · exact ⟨character :: front, rest, rfl, by simpa using some⟩
      have later := find?_isSome_iff regex text false
      simp only [Bool.false_and] at later
      rw [apart, ← later, find?]
      cases matched : regex.steps atStart (character :: text) [] with
      | nil => simp
      | cons step steps => simp

theorem test_iff (regex : Regex) (text : List Char) :
    test regex text = true ↔
      ∃ front rest, text = front ++ rest ∧ regex.steps front.isEmpty rest [] ≠ [] := by
  rw [test, find?_isSome_iff]
  simp only [Bool.true_and]

end Test

end Regex
