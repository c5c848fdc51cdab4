import ChunkLoading.Proofs.CodeTokens

/-!
# What lines assign and refer to

A line of emitted code assigns a helper if it starts with an assignment to it; all other places of a helper's
name refer to it. Lines fit if what they refer to is known before them or assigned by earlier ones of them, outside
of all brackets (`Fits`). Of lines without data this is read off their characters (`Fits.of_spelled`), of lines
with data off the characters before and behind it (`outlined_of_data`); the name of the global object is the one
datum that stands in the code as it is, and any name that is no helper's will do (`IsHost`).
-/

namespace ChunkLoading

namespace Code

/-! ## What a line assigns and refers to -/

/-- The helper that is assigned by an assignment to this name with this sign. -/
def target? (p sign : List Char) : Option Helper :=
  if sign = ['='] then Helper.all.find? (·.path == p) else none

/-- The helper that is assigned by an assignment at the start, and the tokens behind its sign; all tokens if there
is no such assignment. -/
def assignment (ts : List Token) : Option Helper × List Token :=
  match ts with
  | .word p :: .sign s :: rest =>
    match target? p s with
    | some h => (some h, rest)
    | none => (none, ts)
  | .word v :: .word p :: .sign s :: rest =>
    match if v = ['v', 'a', 'r'] then target? p s else none with
    | some h => (some h, rest)
    | none => (none, ts)
  | _ => (none, ts)

/-- The helper that tokens of a line assign. -/
def assigned? (ts : List Token) : Option Helper := (assignment ts).1

/-- The helpers that tokens of a line refer to. -/
def references (ts : List Token) : List Helper := (assignment ts).2.filterMap Token.helper?

/-- The tokens of a line. -/
def tokens (line : String) : List Token := scan .code line.toList

/-- How many more brackets some lines open than they close. -/
def net : List String → Int
  | [] => 0
  | line :: ls => surplus (tokens line) + net ls

/-- Some line assigns a helper, outside of all brackets that lines before it open. -/
def Assigned (ls : List String) (h : Helper) : Prop :=
  ∃ before line, before ++ [line] <+: ls ∧ net before = 0 ∧ assigned? (tokens line) = some h

/-- Brackets are counted line by line. -/
@[simp] theorem net_append (ls ms : List String) : net (ls ++ ms) = net ls + net ms := by
  induction ls with
  | nil => exact (Int.zero_add _).symm
  | cons line ls ih => simp only [List.cons_append, net, ih, Int.add_assoc]

/-- What is assigned among lines is assigned if more lines follow. -/
theorem Assigned.mono {ls ms : List String} {h : Helper} (assigned : Assigned ls h) (earlier : ls <+: ms) :
    Assigned ms h := by
  obtain ⟨before, line, stands, level, assigns⟩ := assigned
  exact ⟨before, line, stands.trans earlier, level, assigns⟩

/-- Behind lines that close their brackets, a helper is assigned by these or by the others. -/
theorem assigned_append {ls ms : List String} {h : Helper} (level : net ls = 0) :
    Assigned (ls ++ ms) h ↔ Assigned ls h ∨ Assigned ms h := by
  constructor
  · rintro ⟨before, line, stands, closed, assigns⟩
    rcases prefix_append_iff.mp stands with first | ⟨between, rfl, second⟩
    · exact .inl ⟨before, line, first, closed, assigns⟩
    · exact .inr ⟨between, line, second, by simpa [level] using closed, assigns⟩
  · rintro (first | ⟨before, line, stands, closed, assigns⟩)
    · exact first.mono (List.prefix_append ls ms)
    · exact ⟨ls ++ before, line, prefix_append_iff.mpr (.inr ⟨before, rfl, stands⟩), by simp [level, closed],
        assigns⟩

/-- Lines that assign the given helpers, and refer to those only that earlier lines assign or that are known
before. -/
structure Walked (known given : List Helper) (ls : List String) : Prop where
  assigned : ∀ h, Assigned ls h ↔ h ∈ given
  supplied : ∀ before line, before ++ [line] <+: ls → ∀ h ∈ references (tokens line),
    h ∈ known ∨ Assigned before h

theorem Walked.nil {known : List Helper} : Walked known [] [] where
  assigned h := by simp [Assigned]
  supplied before line stands := by simp at stands

/-- Such lines that close all brackets. -/
structure Fits (known given : List Helper) (ls : List String) : Prop extends Walked known given ls where
  level : net ls = 0

namespace Fits

variable {known needed given more : List Helper} {ls ms : List String}

theorem nil : Fits known [] [] := { Walked.nil with level := rfl }

/-- Lines that fit still do if more is known before them. -/
theorem mono (fits : Fits needed given ls) (enough : needed ⊆ known) : Fits known given ls where
  level := fits.level
  assigned := fits.assigned
  supplied before line stands h refers :=
    (fits.supplied before line stands h refers).imp_left fun member => enough member

/-- The second lines may refer to what the first ones assign. -/
theorem append (first : Fits known given ls) (second : Fits needed more ms)
    (enough : needed ⊆ known ++ given) : Fits known (given ++ more) (ls ++ ms) where
  level := by simp [first.level, second.level]
  assigned h := by rw [assigned_append first.level, first.assigned, second.assigned, List.mem_append]
  supplied before line stands h refers := by
    rcases prefix_append_iff.mp stands with inside | ⟨between, rfl, behind⟩
    · exact first.supplied before line inside h refers
    · rcases second.supplied between line behind h refers with member | assigned
      · rcases List.mem_append.mp (enough member) with member | member
        · exact .inl member
        · exact .inr (((first.assigned h).mpr member).mono (List.prefix_append ls between))
      · exact .inr ((assigned_append first.level).mpr (.inr assigned))

/-- Lines that fit do not refer to a helper that they neither know nor assign. -/
theorem free {h : Helper} (fits : Fits known given ls) (unknown : h ∉ known) (ungiven : h ∉ given) :
    ¬ Assigned ls h ∧ ∀ line ∈ ls, h ∉ references (tokens line) := by
  have unassigned : ¬ Assigned ls h := fun assigned => ungiven ((fits.assigned h).mp assigned)
  refine ⟨unassigned, fun line member refers => ?_⟩
  obtain ⟨before, stands⟩ := exists_prefix_of_mem member
  rcases fits.supplied before line stands h refers with inside | assigned
  · exact unknown inside
  · exact unassigned (assigned.mono ((List.prefix_append before [line]).trans stands))

end Fits

/-! ## Reading lines -/

/-- What is read off a line. -/
structure Outline where
  assigned : Option Helper
  references : List Helper
  opened : Nat
  closed : Nat

/-- What is read off tokens. -/
def Outline.of (ts : List Token) : Outline :=
  ⟨assigned? ts, Code.references ts, ts.count .opening, ts.count .closing⟩

/-- A line assigns what its outline says, refers to nothing else, and leaves as many brackets open. -/
structure Outlined (line : String) (o : Outline) : Prop where
  assigned : assigned? (tokens line) = o.assigned
  references : Code.references (tokens line) ⊆ o.references
  surplus : Code.surplus (tokens line) = o.opened - o.closed

/-- Reads lines by their outlines, and gives what they assign: `opened` and `closed` brackets stand before them,
and `given` is assigned there. There is none if they refer to a helper that is not assigned before. -/
def walk (known : List Helper) : Nat → Nat → List Helper → List Outline → Option (List Helper)
  | opened, closed, given, [] => if opened = closed then some given else none
  | opened, closed, given, o :: os =>
    if o.references.all (known ++ given).contains then
      walk known (opened + o.opened) (closed + o.closed)
        (if opened = closed then given ++ o.assigned.toList else given) os
    else none

/-- One more line may refer to what is assigned before it. -/
theorem Walked.snoc {known given : List Helper} {ls : List String} (line : String)
    (walked : Walked known given ls) (refers : references (tokens line) ⊆ known ++ given) :
    Walked known (if net ls = 0 then given ++ (assigned? (tokens line)).toList else given) (ls ++ [line]) where
  assigned h := by
    -- An assignment within brackets runs with the function that it stands in, not here.
    have last : Assigned (ls ++ [line]) h ↔
        Assigned ls h ∨ net ls = 0 ∧ assigned? (tokens line) = some h := by
      constructor
      · rintro ⟨before, other, stands, closed, assigns⟩
        rcases prefix_snoc_iff.mp stands with first | ⟨rfl, rfl⟩
        · exact .inl ⟨before, other, first, closed, assigns⟩
        · exact .inr ⟨closed, assigns⟩
      · rintro (first | ⟨closed, assigns⟩)
        · exact first.mono (List.prefix_append ls [line])
        · exact ⟨ls, line, List.prefix_rfl, closed, assigns⟩
    rw [last, walked.assigned]
    split <;> simp_all
  supplied before other stands h member := by
    rcases prefix_snoc_iff.mp stands with first | ⟨rfl, rfl⟩
    · exact walked.supplied before other first h member
    · exact (List.mem_append.mp (refers member)).imp_right (walked.assigned h).mpr

/-- What is read by outlines holds of the lines. -/
theorem Walked.walk {known given result : List Helper} {done ls : List String} {os : List Outline}
    {opened closed : Nat} (walked : Walked known given done) (level : net done = opened - closed)
    (outlined : List.Forall₂ Outlined ls os) (read : walk known opened closed given os = some result) :
    Fits known result (done ++ ls) := by
  -- The induction is on the lines that are left; those that were read carry what is assigned so far.
  induction outlined generalizing done opened closed given with
  | nil =>
    unfold Code.walk at read
    split at read
    · next same =>
      obtain rfl := Option.some.inj read
      refine ⟨by simpa using walked, ?_⟩
      simp [level, same]
    · cases read
  | @cons line o ls os first _ ih =>
    unfold Code.walk at read
    split at read
    · next refers =>
      have next := walked.snoc line fun h member => by
        simpa using List.all_eq_true.mp refers h (first.references member)
      have bare : net done = 0 ↔ opened = closed := by omega
      simp only [bare, first.assigned] at next
      have more : net (done ++ [line]) = ↑(opened + o.opened) - ↑(closed + o.closed) := by
        have last : net [line] = o.opened - o.closed := by simp [net, first.surplus]
        rw [net_append, level, last]
        omega
      simpa using ih next more read
    · cases read

/-- Lines whose outlines can be walked through fit. -/
theorem Fits.of_outlines {known given : List Helper} {ls : List String} {os : List Outline}
    (outlined : List.Forall₂ Outlined ls os) (read : walk known 0 0 [] os = some given) :
    Fits known given ls :=
  Walked.nil.walk rfl outlined read

/-! ## Lines without data -/

/-- Lines and their characters. -/
inductive Spelled : List String → List (List Char) → Prop
  | nil : Spelled [] []
  | cons {line : String} {cs : List Char} {ls : List String} {css : List (List Char)}
      (chars : line = String.ofList cs) (rest : Spelled ls css) : Spelled (line :: ls) (cs :: css)

/-- The outline of a line without data is read off its characters. -/
theorem outlined_of_chars {line : String} {cs : List Char} (chars : line = String.ofList cs) :
    Outlined line (.of (scan .code cs)) := by
  have same : tokens line = scan .code cs := by rw [tokens, toList_of_chars chars]
  exact ⟨by rw [same]; rfl, by rw [same]; exact List.Subset.refl _, by rw [same]; rfl⟩

/-- So are those of several such lines. -/
theorem Spelled.outlined {ls : List String} {css : List (List Char)} (spelled : Spelled ls css) :
    List.Forall₂ Outlined ls (css.map fun cs => .of (scan .code cs)) := by
  induction spelled with
  | nil => exact .nil
  | cons chars _ ih => exact .cons (outlined_of_chars chars) ih

/-- Lines without data fit if their characters say so. -/
theorem Fits.of_spelled {known given : List Helper} {ls : List String} {css : List (List Char)}
    (spelled : Spelled ls css)
    (read : walk known 0 0 [] (css.map fun cs => .of (scan .code cs)) = some given) : Fits known given ls :=
  .of_outlines spelled.outlined read

/-- To set a member of a helper refers to it, and a name in a comment counts for nothing. -/
example : Fits [] [.handlers] ["  __chunkwise_require__.f = \x7b\x7d;",
    "  __chunkwise_require__.f.j = () => \x7b\x7d; // like hint"] :=
  .of_spelled (.cons rfl (.cons rfl .nil)) (by decide +kernel)

/-! ## Lines with data -/

/-- Whether the start of a line tells what the line assigns, whatever follows. -/
def settles : List Token → Bool
  | .opening :: _ => true
  | .word _ :: .sign _ :: _ => true
  | .word _ :: .opening :: _ => true
  | .word _ :: .word _ :: .sign _ :: _ => true
  | _ => false

/-- Once the start of a line settles what it assigns, more tokens are only referred to. -/
theorem assignment_append {ts : List Token} (settled : settles ts = true) (us : List Token) :
    assignment (ts ++ us) = ((assignment ts).1, (assignment ts).2 ++ us) := by
  unfold settles at settled
  split at settled
  · rfl
  · simp only [List.cons_append, assignment]
    split <;> rfl
  · rfl
  · simp only [List.cons_append, assignment]
    split <;> rfl
  · cases settled

/-- A line is read off its start and its end if what stands between them refers to no other helpers than the
given ones, and the line closes its brackets. -/
theorem outlined_of_parts (allowed : List Helper) {line : String} {ts us vs : List Token}
    (form : tokens line = ts ++ (us ++ vs)) (settled : settles ts = true) (inside : Within allowed us)
    (level : surplus ts + (surplus us + surplus vs) = 0) :
    Outlined line ⟨assigned? ts, references ts ++ (allowed ++ vs.filterMap Token.helper?), 0, 0⟩ where
  assigned := by rw [form, assigned?, assignment_append settled, assigned?]
  references := by
    intro h member
    rw [form, Code.references, assignment_append settled, List.filterMap_append, List.filterMap_append] at member
    simp only [List.mem_append] at member ⊢
    exact member.imp_right (.imp_left fun data => within_iff.mp inside data)
  surplus := by simp [form, level]

/-- The characters before and behind the data of a line end where no name is, settle what the line assigns, and
close the brackets that are left open. -/
def Frames (front back : List Char) (inner : Int) : Prop :=
  (run .code front).2 = .code ∧ settles (run .code front).1 = true ∧ back.head?.any (!isPathPart ·) = true ∧
    surplus (run .code front).1 + (inner + surplus (scan .code back)) = 0

instance (front back : List Char) (inner : Int) : Decidable (Frames front back inner) :=
  inferInstanceAs (Decidable (_ ∧ _ ∧ _ ∧ _))

/-- The outline of a line with data is read off what stands before and behind the data. -/
theorem outlined_of_data (allowed : List Helper) {pre data post : String} {front back : List Char} {k : Int}
    (before : pre = String.ofList front) (behind : post = String.ofList back)
    (yields : Yields allowed k data.toList) (frames : Frames front back k) :
    Outlined (pre ++ data ++ post) ⟨assigned? (run .code front).1,
      references (run .code front).1 ++ (allowed ++ (scan .code back).filterMap Token.helper?), 0, 0⟩ := by
  obtain ⟨ready, settled, ends, level⟩ := frames
  obtain ⟨us, read, inside, rfl⟩ := yields
  refine outlined_of_parts allowed ?_ settled inside level
  have stops : Breaks back := by
    cases back with
    | nil => exact breaks_nil
    | cons c rest => simpa [breaks_cons] using ends
  rw [tokens, String.toList_append, String.toList_append, toList_of_chars before, toList_of_chars behind,
    List.append_assoc, scan_append, ready, read _ stops]

/-- A line with data whose tokens are known. -/
theorem outlined_of_read {pre data post : String} {front back : List Char} {ts : List Token}
    (before : pre = String.ofList front) (behind : post = String.ofList back)
    (ready : (run .code front).2 = .code) (read : run .code data.toList = (ts, .code)) :
    Outlined (pre ++ data ++ post) (.of ((run .code front).1 ++ (ts ++ scan .code back))) := by
  have form : tokens (pre ++ data ++ post) = (run .code front).1 ++ (ts ++ scan .code back) := by
    rw [tokens, String.toList_append, String.toList_append, toList_of_chars before, toList_of_chars behind,
      List.append_assoc, scan_append, ready, scan_append, read]
  exact ⟨by rw [form]; rfl, by rw [form]; exact List.Subset.refl _, by rw [form]; rfl⟩

/-- The name of a global object is an identifier and not the name of a helper. -/
structure IsHost (name : String) : Prop where
  identifier : Identifier.isIdentifier name = true
  free : ∀ h : Helper, name ≠ h.name

/-- A member of the global object, named by a literal. -/
def hosted (name : String) (key : String) : String := name ++ "[" ++ Literal.string key ++ "]"

variable {name : String}

theorem run_parts {w s : List Char} (parts : s.all Identifier.isPart = true) :
    run (.word w) s = ([], .word (s.reverse ++ w)) := by
  induction s generalizing w with
  | nil => rfl
  | cons c s ih =>
    simp only [List.all_cons, Bool.and_eq_true] at parts
    simp [run, next, isPathPart, parts.1, ih parts.2]

/-- An identifier is one name, so far. -/
theorem run_identifier (identifier : Identifier.isIdentifier name = true) :
    run .code name.toList = ([], .word name.toList.reverse) := by
  unfold Identifier.isIdentifier at identifier
  split at identifier
  · cases identifier
  · next c cs chars =>
    simp only [Bool.and_eq_true] at identifier
    rw [chars]
    simp [run, next, start, isPathStart, identifier.1, run_parts identifier.2]

/-- And it ends where no name goes on. -/
theorem scan_identifier {rest : List Char} (identifier : Identifier.isIdentifier name = true)
    (breaks : Breaks rest) : scan .code (name.toList ++ rest) = .word name.toList :: scan .code rest := by
  rw [scan_append, run_identifier identifier]
  simpa [Mode.pending] using scan_settled (m := .word name.toList.reverse) rfl breaks

/-- An identifier selects nothing. -/
theorem not_mem_identifier (identifier : Identifier.isIdentifier name = true) : '.' ∉ name.toList := by
  unfold Identifier.isIdentifier at identifier
  split at identifier
  · cases identifier
  · next c cs chars =>
    simp only [Bool.and_eq_true] at identifier
    rw [chars, List.mem_cons]
    rintro (rfl | inside)
    · exact absurd identifier.1 (by decide)
    · exact absurd (List.all_eq_true.mp identifier.2 _ inside) (by decide)

/-- The name of a global object refers to no helper. -/
theorem IsHost.helper? (host : IsHost name) : Token.helper? (.word name.toList) = none := by
  have plain := not_mem_identifier host.identifier
  have whole : name.toList.dropWhile (· == '.') = name.toList := by
    rw [List.dropWhile_eq_self_iff]
    intro some first
    exact plain (beq_iff_eq.mp first ▸ List.getElem_mem some)
  show Helper.named? (name.toList.dropWhile (· == '.')) = none
  rw [whole, Helper.named?, List.find?_eq_none]
  intro h _ selects
  rcases Helper.selects_iff.mp selects with same | ⟨rest, same⟩
  · rw [← h.toList_name] at same
    exact host.free h (String.toList_inj.mp same)
  · exact plain (same ▸ List.mem_append_right _ List.mem_cons_self)

/-- A member of a global object refers to no helper. -/
theorem yields_hosted (host : IsHost name) (key : String) : Yields [] 0 (hosted name key).toList := by
  have read := run_identifier host.identifier
  have opened : ("[" : String).toList = ['['] := toList_of_chars rfl
  have closed : ("]" : String).toList = [']'] := toList_of_chars rfl
  have own : Yields [] 0 name.toList := by
    refine .of_run ?_ ?_ ?_ <;>
      simp [scan, read, Mode.isSettled, Mode.pending, Within, surplus, host.helper?]
  have inside : Yields [] (-1) ((Literal.string key).toList ++ [']']) :=
    (Yields.string key).append (.closing (by decide)) rfl
  have member : Yields [] 0 ('[' :: ((Literal.string key).toList ++ [']'])) := .lead_opening (by decide) inside
  rw [hosted, String.toList_append, String.toList_append, String.toList_append, opened, closed,
    List.append_assoc, List.append_assoc, List.singleton_append]
  exact own.append member rfl

/-- The line that sets a member of a global object assigns no helper and refers to none. -/
theorem outlined_hosted (host : IsHost name) (key : String) {post : String} {back : List Char}
    (behind : post = String.ofList back) (plain : (scan .code (']' :: back)).filterMap Token.helper? = [])
    (level : surplus (scan .code (']' :: back)) = -1) :
    Outlined ("  " ++ hosted name key ++ post) ⟨none, [], 0, 0⟩ := by
  have opened : ("[" : String).toList = ['['] := toList_of_chars rfl
  have closed : ("]" : String).toList = [']'] := toList_of_chars rfl
  have blank : ("  " : String).toList = [' ', ' '] := toList_of_chars rfl
  have silent : run .code (Literal.string key).toList = ([], .code) := by
    rw [Literal.string, Json.text, String.toList_ofList]
    exact run_string key.toList
  have member : scan .code ('[' :: ((Literal.string key).toList ++ ']' :: back)) =
      .opening :: scan .code (']' :: back) := by
    rw [scan_cons, show next .code '[' = ([.opening], .code) from rfl, scan_append, silent]
    simp only [List.singleton_append, List.nil_append]
  have stops : Breaks ('[' :: ((Literal.string key).toList ++ ']' :: back)) := breaks_cons.mpr rfl
  -- The line starts with the datum itself, so it is split behind the bracket that follows the name.
  have form : tokens ("  " ++ hosted name key ++ post) =
      [.word name.toList, .opening] ++ ([] ++ scan .code (']' :: back)) := by
    have chars : ("  " ++ hosted name key ++ post).toList =
        [' ', ' '] ++ (name.toList ++ '[' :: ((Literal.string key).toList ++ ']' :: back)) := by
      simp [hosted, opened, closed, blank, toList_of_chars behind]
    rw [tokens, chars, scan_append, show run .code [' ', ' '] = ([], .code) from rfl]
    simp only [List.nil_append, scan_identifier host.identifier stops, member,
      List.cons_append]
  have own : [Token.word name.toList, .opening].filterMap Token.helper? = [] := by
    rw [List.filterMap_cons_none host.helper?]
    rfl
  have outlined := outlined_of_parts [] form rfl (List.forall_mem_nil _) (by rw [level]; rfl)
  rw [List.nil_append, plain] at outlined
  simpa [references, assigned?, assignment, own] using outlined

end Code

end ChunkLoading
