import SqlStatement.Proofs.QuietSelects

/-!
# Whose ORDER BY it is

How MySQL reads the members of a union.  Behind the last member an ORDER BY or a
LIMIT belongs to the whole union, and behind an earlier one it is not allowed,
unless the member stands in parentheses of its own: what stands in them is the
member's.

* `Surface.unionTails?`: the tails of the members and that of the whole, if the text
  is allowed.
* `Surface.unionTails?_of_loose`: members without parentheses have no tails of their
  own; `Surface.unionTails?_of_enclosed`: in parentheses each keeps its own.
* `Select.tokens_script`: what a select looks like to this reading.
* `Union.tails_of_compile`: the members of a union are written without parentheses.
-/

namespace SqlStatement

open Script Text Surface

/-! ### The rule -/

namespace Surface

/-- Whether a token begins an ORDER BY or a LIMIT. -/
def Token.opensTail : Token → Bool
  | .clause .order | .clause .limit => true
  | _ => false

/-- From the first ORDER BY or LIMIT up to what says how rows are locked. -/
def clauseTail (ts : List Token) : List Token :=
  (ts.dropWhile (!·.opensTail)).takeWhile (· != .clause .lock)

/-- What may stand behind UNION to say whether duplicates stay. -/
def Token.isQuantifier : Token → Bool
  | .other run => ["ALL", "DISTINCT"].contains (String.ofList (run.map Char.toUpper))
  | _ => false

/-- What is said of order and number in the parentheses of a member, and behind it. -/
structure MemberTail where
  own : List Token
  loose : List Token
deriving DecidableEq, Repr

def memberTail (ts : List Token) : MemberTail :=
  match ts.dropWhile Token.isQuantifier with
  | .group content :: rest => ⟨clauseTail (tokens content), clauseTail rest⟩
  | member => ⟨[], clauseTail member⟩

/-- The members, as UNION on the surface tells them apart. -/
def memberTails (text : List Char) : List MemberTail :=
  ((tokens text).splitOn (.clause .union)).map memberTail

/-- The tail of each member and that of the union as a whole; nothing if the text is not allowed. -/
def unionTails? (text : List Char) : Option (List (List Token) × List Token) :=
  if Whole text ∧ ∀ m ∈ (memberTails text).dropLast, m.loose = [] then
    some ((memberTails text).map (·.own), ((memberTails text).getLast?.map (·.loose)).getD [])
  else none

/-- A tail with nothing of the kind in front of it, and at most a lock behind it. -/
theorem clauseTail_append {front tail lock : List Token}
    (hFront : ∀ t ∈ front, t.opensTail = false) (hHead : ∀ t ∈ tail.head?, t.opensTail = true)
    (hTail : ∀ t ∈ tail, t ≠ .clause .lock)
    (hLock : lock = [] ∨ lock = [.clause .lock, .other "UPDATE".toList]) :
    clauseTail (front ++ (tail ++ lock)) = tail := by
  have hSkipped : (tail ++ lock).dropWhile (!·.opensTail)
      = if tail = [] then [] else tail ++ lock := by
    cases tail with
    | nil => rcases hLock with rfl | rfl <;> rfl
    | cons t rest => simp [hHead t rfl]
  have hTaken : lock.takeWhile (· != .clause .lock) = [] := by
    rcases hLock with rfl | rfl <;> rfl
  rw [clauseTail, List.dropWhile_append_of_pos (by simpa using hFront), hSkipped]
  split
  · next hNil => rw [hNil]; rfl
  · rw [List.takeWhile_append_of_pos (by simpa using hTail), hTaken, List.append_nil]

/-! ### Telling the members apart -/

/-- A member as it stands in a union: nothing in it ends it too early, and nothing runs on. -/
structure IsMember (l : List Char) : Prop where
  whole : Whole l
  last_eq : ∀ c ∈ l.getLast?, isWordChar c = false
  union_notMem : .clause .union ∉ tokens l

/-- What stands between two members: UNION, and perhaps whether duplicates stay. -/
structure IsSeparator (l : List Char) (quantifiers : List Token) : Prop where
  whole : Whole l
  last_eq : ∀ c ∈ l.getLast?, isWordChar c = false
  tokens_eq : tokens l = .clause .union :: quantifiers
  isQuantifier_eq : ∀ t ∈ quantifiers, t.isQuantifier = true

section Members

variable {sep : List Char} {quantifiers : List Token}

theorem memberTail_append {lead ts : List Token} (h : ∀ t ∈ lead, t.isQuantifier = true) :
    memberTail (lead ++ ts) = memberTail ts := by
  rw [memberTail, memberTail, List.dropWhile_append_of_pos h]

theorem union_notMem_of_isQuantifier {lead : List Token}
    (h : ∀ t ∈ lead, t.isQuantifier = true) : .clause .union ∉ lead :=
  fun hMem => absurd (h _ hMem) (by decide)

theorem whole_members (hSep : IsSeparator sep quantifiers) {members : List (List Char)}
    (h : ∀ m ∈ members, IsMember m) : Whole (sep.intercalate members) :=
  hSep.whole.intercalate fun m hm => (h m hm).whole

theorem splitOn_tokens_members (hSep : IsSeparator sep quantifiers) :
    ∀ {lead : List Token} {m : List Char} {rest : List (List Char)},
      (∀ t ∈ lead, t.isQuantifier = true) → (∀ x ∈ m :: rest, IsMember x) →
      (lead ++ tokens (sep.intercalate (m :: rest))).splitOn (.clause .union)
        = (lead ++ tokens m) :: rest.map (quantifiers ++ tokens ·)
  | lead, m, [], hLead, h => by
    have hMember := h m List.mem_cons_self
    rw [List.intercalate_singleton, List.splitOn_eq_splitOnP]
    refine List.splitOnP_eq_singleton fun t ht => ?_
    rw [beq_eq_false_iff_ne]
    rintro rfl
    exact (List.mem_append.mp ht).elim (union_notMem_of_isQuantifier hLead) hMember.union_notMem
  | lead, m, next :: rest, hLead, h => by
    obtain ⟨hMember, hRest⟩ := List.forall_mem_cons.mp h
    have hFront : .clause .union ∉ lead ++ tokens m := fun ht =>
      (List.mem_append.mp ht).elim (union_notMem_of_isQuantifier hLead) hMember.union_notMem
    have hTokens : lead ++ tokens (sep.intercalate (m :: next :: rest))
        = (lead ++ tokens m) ++ .clause .union
          :: (quantifiers ++ tokens (sep.intercalate (next :: rest))) := by
      rw [List.intercalate_cons_cons, List.append_assoc,
        tokens_append_of_last hMember.whole hMember.last_eq,
        tokens_append_of_last hSep.whole hSep.last_eq, hSep.tokens_eq]
      simp
    rw [hTokens, List.splitOn_eq_splitOnP, List.splitOnP_append_cons_of_forall_mem,
      ← List.splitOn_eq_splitOnP, splitOn_tokens_members hSep hSep.isQuantifier_eq hRest,
      List.map_cons]
    · intro t ht
      rw [beq_eq_false_iff_ne]
      rintro rfl
      exact hFront ht
    · exact beq_self_eq_true _

/-- Each member is read for itself, whatever stands between them. -/
theorem memberTails_members (hSep : IsSeparator sep quantifiers) {members : List (List Char)}
    (hNe : members ≠ []) (h : ∀ m ∈ members, IsMember m) :
    memberTails ('\n' :: sep.intercalate members)
      = members.map fun m => memberTail (tokens m) := by
  obtain ⟨m, rest, rfl⟩ := List.exists_cons_of_ne_nil hNe
  have hBreak : tokens ('\n' :: sep.intercalate (m :: rest))
      = [] ++ tokens (sep.intercalate (m :: rest)) :=
    tokens_append_of_last (a := ['\n']) (by decide) (all_not_isWordChar_iff.mp (by decide))
  rw [memberTails, hBreak, splitOn_tokens_members hSep (by simp) h]
  simp [memberTail_append hSep.isQuantifier_eq]

/-- Without parentheses no member has a tail of its own. -/
theorem unionTails?_of_loose (hSep : IsSeparator sep quantifiers) {members : List (List Char)}
    (hNe : members ≠ []) (h : ∀ m ∈ members, IsMember m) {tails : List (List Token)}
    (hTails : members.map (fun m => memberTail (tokens m)) = tails.map (⟨[], ·⟩)) :
    unionTails? ('\n' :: sep.intercalate members)
      = if ∀ t ∈ tails.dropLast, t = [] then
          some (tails.map fun _ => [], tails.getLast?.getD [])
        else none := by
  have hWhole : Whole ('\n' :: sep.intercalate members) :=
    (by decide : Whole ['\n']).append (whole_members hSep h)
  have hEarlier : (∀ m ∈ (tails.map (MemberTail.mk [])).dropLast, m.loose = []) ↔
      ∀ t ∈ tails.dropLast, t = [] := by
    rw [← List.map_dropLast, List.forall_mem_map]
  rw [unionTails?, memberTails_members hSep hNe h, hTails]
  simp only [hWhole, true_and, hEarlier, List.map_map, List.getLast?_map, Option.map_map]
  simp [Function.comp_def]

/-- That is right only of members that have none. -/
theorem loose_eq_own_iff {tails : List (List Token)} :
    (if ∀ t ∈ tails.dropLast, t = [] then
        some (tails.map fun _ => ([] : List Token), tails.getLast?.getD []) else none)
      = some (tails, []) ↔ ∀ t ∈ tails, t = [] := by
  constructor
  · intro h
    split at h
    · have hOwn : tails.map (fun _ => ([] : List Token)) = tails.map id := by
        rw [List.map_id]
        exact congrArg Prod.fst (Option.some.inj h)
      exact fun t ht => (List.map_inj_left.mp hOwn t ht).symm
    · cases h
  · intro h
    have hOwn : tails.map (fun _ => ([] : List Token)) = tails.map id :=
      List.map_congr_left fun t ht => (h t ht).symm
    have hLast : tails.getLast?.getD [] = [] := by
      cases hLast : tails.getLast? with
      | none => rfl
      | some t => exact h t (List.mem_of_getLast? hLast)
    rw [if_pos fun t ht => h t (List.dropLast_subset _ ht), hOwn, List.map_id, hLast]

/-- A member in parentheses of its own, with a line break behind them. -/
def enclosed (m : List Char) : List Char := '(' :: (m ++ [')']) ++ ['\n']

theorem tokens_enclosed {m : List Char} (h : Whole m) : tokens (enclosed m) = [.group m] := by
  rw [enclosed, tokens_append_of_last (quiet_group h).whole (divides_group h).last_eq,
    ← List.cons_append, tokens_group h]
  rfl

theorem isMember_enclosed {m : List Char} (h : Whole m) : IsMember (enclosed m) where
  whole := (quiet_group h).whole.append (by decide)
  last_eq c hc := by
    rw [enclosed, List.getLast?_concat] at hc
    obtain rfl := Option.some.inj hc
    decide
  union_notMem := by simp [tokens_enclosed h]

/-- In parentheses each member keeps its tail, and the union has none. -/
theorem unionTails?_of_enclosed (hSep : IsSeparator sep quantifiers)
    {members : List (List Char)} (hNe : members ≠ []) (h : ∀ m ∈ members, Whole m) :
    unionTails? ('\n' :: sep.intercalate (members.map enclosed))
      = some (members.map fun m => clauseTail (tokens m), []) := by
  have hMembers : ∀ x ∈ members.map enclosed, IsMember x :=
    List.forall_mem_map.mpr fun m hm => isMember_enclosed (h m hm)
  have hTails : memberTails ('\n' :: sep.intercalate (members.map enclosed))
      = members.map fun m => ⟨clauseTail (tokens m), []⟩ := by
    rw [memberTails_members hSep (by simpa using hNe) hMembers, List.map_map]
    refine List.map_congr_left fun m hm => ?_
    show memberTail (tokens (enclosed m)) = _
    rw [tokens_enclosed (h m hm)]
    rfl
  have hWhole : Whole ('\n' :: sep.intercalate (members.map enclosed)) :=
    (by decide : Whole ['\n']).append (whole_members hSep hMembers)
  have hLast : ∀ o : Option (List Char), (o.map fun _ => ([] : List Token)).getD [] = [] := by
    rintro (_ | _) <;> rfl
  rw [unionTails?, hTails, if_pos ⟨hWhole, by rw [← List.map_dropLast, List.forall_mem_map]; simp⟩]
  simp [Function.comp_def, hLast]

end Members

end Surface

/-! ### Selects as members -/

namespace Selection

variable {n : Naming} {s : Selection}

theorem tokens_tail (hn : n.IsQuiet) (h : ∀ o ∈ s.order, Tame o.field) :
    tokens (s.tail n).toList = tokens (s.orderLine n).toList ++ tokens s.limitLine.toList := by
  have hOrder := clauseLine_orderLine hn h
  rw [tail, String.toList_append, tokens_append_of_last hOrder.whole hOrder.last_eq]

theorem tokens_tail_eq_nil_iff (hn : n.IsQuiet) (h : ∀ o ∈ s.order, Tame o.field) :
    tokens (s.tail n).toList = [] ↔ s.order = [] ∧ ¬ 0 < s.limit := by
  rw [tokens_tail hn h, List.append_eq_nil_iff, (clauseLine_orderLine hn h).tokens_eq_nil_iff,
    (clauseLine_limitLine s).tokens_eq_nil_iff, Classical.not_not]

/-- The tail begins with ORDER BY or LIMIT, if it is there at all. -/
theorem opensTail_head (hn : n.IsQuiet) (h : ∀ o ∈ s.order, Tame o.field) :
    ∀ t ∈ (tokens (s.tail n).toList).head?, t.opensTail = true := by
  intro t ht
  rw [tokens_tail hn h, List.head?_append] at ht
  rcases Option.or_eq_some_iff.mp ht with ht | ⟨-, ht⟩
  · rw [(clauseLine_orderLine hn h).clauses.1 t ht]
    rfl
  · rw [(clauseLine_limitLine s).clauses.1 t ht]
    rfl

/-- It holds no other clause. -/
theorem opensTail_of_isClause (hn : n.IsQuiet) (h : ∀ o ∈ s.order, Tame o.field) :
    ∀ t ∈ tokens (s.tail n).toList, t.isClause = true → t.opensTail = true := by
  intro t ht hClause
  rw [tokens_tail hn h] at ht
  rcases List.mem_append.mp ht with ht | ht
  · rw [(clauseLine_orderLine hn h).clauses.2 t ht hClause]
    rfl
  · rw [(clauseLine_limitLine s).clauses.2 t ht hClause]
    rfl

theorem last_tail (hn : n.IsQuiet) (h : ∀ o ∈ s.order, Tame o.field) :
    ∀ c ∈ (s.tail n).toList.getLast?, isWordChar c = false := by
  intro c hc
  rw [tail, String.toList_append, List.getLast?_append] at hc
  rcases Option.or_eq_some_iff.mp hc with hc | ⟨-, hc⟩
  · exact (clauseLine_limitLine s).last_eq c hc
  · exact (clauseLine_orderLine hn h).last_eq c hc

end Selection

namespace Select

variable {schema : String} {s : Select}

/-- What is said of the order and number of the rows of a select, when it is compiled on its own. -/
def ownTail (s : Select) : List Token :=
  tokens (s.selection.tail (Level.namingOf none s)).toList

/-- A select begins with its first word. -/
theorem tokens_front (schema : String) (n : Naming) (sel : Selection) (json : List NamedScript)
    (back : List Char) : ∃ rest, tokens (written schema (sel.listScript n json) ++ back)
      = .other "SELECT".toList :: rest := by
  obtain ⟨rest, hText⟩ : ∃ rest, written schema (sel.listScript n json)
      = "SELECT".toList ++ ' ' :: rest := by
    rw [Selection.listScript, List.cons_append, written]
    cases sel.distinct with
    | true => exact ⟨"DISTINCT ".toList ++ _, rfl⟩
    | false => exact ⟨_, rfl⟩
  have hApart : Apart "SELECT".toList (' ' :: (rest ++ back)) := fun x _ y hy => by
    obtain rfl := Option.some.inj hy
    rw [(by decide : isWordChar ' ' = false), Bool.and_false]
  refine ⟨tokens (' ' :: (rest ++ back)), ?_⟩
  rw [hText, List.append_assoc, List.cons_append, tokens_append (by decide) hApart,
    (by decide : tokens "SELECT".toList = [.other "SELECT".toList])]
  rfl

/-- What locks the rows. -/
def lockTokens (s : Select) : List Token := tokens s.selection.lockLine.toList

theorem lockTokens_eq (s : Select) :
    s.lockTokens = [] ∨ s.lockTokens = [.clause .lock, .other "UPDATE".toList] := by
  rw [lockTokens, Selection.lockLine]
  cases s.selection.locked with
  | true => exact .inr (by decide)
  | false => exact .inl (by decide)

/-- The tokens of a select: SELECT, others that begin no clause, its tail, and its lock. -/
theorem tokens_script (hSchema : Tame schema) (h : ∀ t ∈ s.texts, Tame t)
    (hNone : failure? (s.script none) = none) :
    ∃ front, tokens (written schema (s.script none))
        = .other "SELECT".toList :: front ++ (s.ownTail ++ s.lockTokens) ∧
      ∀ t ∈ front, t.isClause = false := by
  obtain ⟨p, hPlan⟩ := exists_plan hNone
  obtain ⟨hSource, hSelection, hFilter, hJson⟩ := forall_mem_texts.mp h
  have hn : p.naming.IsQuiet := Source.isQuiet_naming hSource hPlan
  obtain ⟨hFields, -, -, hOrder⟩ := Selection.forall_mem_texts.mp hSelection
  have hFront := (Selection.opens_listScript hn hFields
    (JsonSelect.isQuiet_scripts p.naming s.json hSchema hn hJson)).append_opens
      (opens_bodyScript hSchema hPlan hSource hSelection (by simp)
        (Filter.quiet_terms p.naming s.filter hSchema hn hFilter))
  obtain ⟨front, hTokens⟩ := tokens_front schema p.naming s.selection
    (JsonSelect.scripts p.naming s.json) (written schema (s.bodyScript none p))
  have hQuiet := hFront.quiet.isClause_eq
  rw [hTokens, List.forall_mem_cons] at hQuiet
  have hText : written schema (s.script none)
      = written schema (s.selection.listScript p.naming (JsonSelect.scripts p.naming s.json))
        ++ written schema (s.bodyScript none p)
        ++ ((s.selection.tail p.naming).toList ++ s.selection.lockLine.toList) := by
    rw [written_script_eq hPlan, List.append_assoc]
    rfl
  refine ⟨front, ?_, hQuiet.2⟩
  rw [hText, tokens_append_of_last hFront.quiet.whole hFront.last_eq, hTokens,
    tokens_append_of_last (Selection.whole_tail hn hOrder) (Selection.last_tail hn hOrder),
    ownTail, Level.namingOf, hPlan]
  rfl

theorem ownTail_spec (h : ∀ t ∈ s.texts, Tame t) (hNone : failure? (s.script none) = none) :
    (s.ownTail = [] ↔ s.selection.order = [] ∧ ¬ 0 < s.selection.limit) ∧
      (∀ t ∈ s.ownTail.head?, t.opensTail = true) ∧
      ∀ t ∈ s.ownTail, t.isClause = true → t.opensTail = true := by
  obtain ⟨p, hPlan⟩ := exists_plan hNone
  obtain ⟨hSource, hSelection, -, -⟩ := forall_mem_texts.mp h
  obtain ⟨-, -, -, hOrder⟩ := Selection.forall_mem_texts.mp hSelection
  have hn : p.naming.IsQuiet := Source.isQuiet_naming hSource hPlan
  rw [ownTail, Level.namingOf, hPlan]
  exact ⟨Selection.tokens_tail_eq_nil_iff hn hOrder, Selection.opensTail_head hn hOrder,
    Selection.opensTail_of_isClause hn hOrder⟩

theorem whole_nestedText (hSchema : Tame schema) (h : ∀ t ∈ s.texts, Tame t) :
    Whole (nestedText schema (s.script none)) :=
  (whole_script s none hSchema h (by simp)).dropEndWhile

theorem tokens_nestedText (hSchema : Tame schema) (h : ∀ t ∈ s.texts, Tame t) :
    tokens (nestedText schema (s.script none)) = tokens (written schema (s.script none)) :=
  tokens_dropEndWhile (whole_script s none hSchema h (by simp))

/-- Read on its own, a select has the tail that was asked for. -/
theorem clauseTail_nestedText (hSchema : Tame schema) (h : ∀ t ∈ s.texts, Tame t)
    (hNone : failure? (s.script none) = none) :
    clauseTail (tokens (nestedText schema (s.script none))) = s.ownTail := by
  obtain ⟨front, hTokens, hFront⟩ := tokens_script hSchema h hNone
  obtain ⟨-, hHead, hTail⟩ := ownTail_spec h hNone
  have hOpens : ∀ t ∈ Token.other "SELECT".toList :: front, t.opensTail = false := by
    refine List.forall_mem_cons.mpr ⟨rfl, fun t ht => ?_⟩
    have hClause := hFront t ht
    cases t with
    | clause w => cases hClause
    | group _ | other _ => rfl
  have hTailLock : ∀ t ∈ s.ownTail, t ≠ .clause .lock := by
    rintro t ht rfl
    exact absurd (hTail _ ht rfl) (by decide)
  rw [tokens_nestedText hSchema h, hTokens,
    clauseTail_append hOpens hHead hTailLock s.lockTokens_eq]

theorem written_memberScript (schema : String) (s : Select) :
    written schema (Union.memberScript s) = nestedText schema (s.script none) ++ ['\n'] := by
  simp [Union.memberScript, nestedText]

theorem isMember_memberScript (hSchema : Tame schema) (h : ∀ t ∈ s.texts, Tame t)
    (hNone : failure? (s.script none) = none) :
    IsMember (written schema (Union.memberScript s)) := by
  obtain ⟨front, hTokens, hFront⟩ := tokens_script hSchema h hNone
  have hTail := (ownTail_spec h hNone).2.2
  have hWhole := whole_nestedText hSchema h
  rw [written_memberScript]
  refine ⟨hWhole.append (by decide), fun c hc => ?_, fun hUnion => ?_⟩
  · rw [List.getLast?_concat] at hc
    obtain rfl := Option.some.inj hc
    decide
  · rw [tokens_append_newline hWhole, tokens_nestedText hSchema h, hTokens, List.mem_append,
      List.mem_append, List.mem_cons] at hUnion
    rcases hUnion with (hWord | hMem) | hMem | hMem
    · cases hWord
    · exact absurd (hFront _ hMem) (by decide)
    · exact absurd (hTail _ hMem rfl) (by decide)
    · rcases s.lockTokens_eq with hLock | hLock <;> simp [hLock] at hMem

/-- Among other members its tail is read as loose. -/
theorem memberTail_memberScript (hSchema : Tame schema) (h : ∀ t ∈ s.texts, Tame t)
    (hNone : failure? (s.script none) = none) :
    memberTail (tokens (written schema (Union.memberScript s))) = ⟨[], s.ownTail⟩ := by
  obtain ⟨front, hTokens, -⟩ := tokens_script hSchema h hNone
  have hWord : Token.isQuantifier (.other "SELECT".toList) = false := by decide
  rw [written_memberScript, tokens_append_newline (whole_nestedText hSchema h),
    ← clauseTail_nestedText hSchema h hNone, tokens_nestedText hSchema h, hTokens, memberTail,
    List.cons_append, List.dropWhile_cons, hWord]
  rfl

end Select

/-! ### Unions -/

namespace Union

variable {schema : String}

theorem isSeparator_separator (u : Union) : IsSeparator u.separator.toList
    (if u.keepDuplicates then [.other "ALL".toList] else []) := by
  rw [separator]
  cases u.keepDuplicates with
  | true => exact ⟨by decide, all_not_isWordChar_iff.mp (by decide), by decide, by decide⟩
  | false => exact ⟨by decide, all_not_isWordChar_iff.mp (by decide), by decide, by decide⟩

/-- What stands in front of the parentheses round the members: the outer select list and FROM. -/
def frontText (schema : String) (u : Union) : String :=
  String.ofList (written schema (u.outer.selection.listScript (Level.namingOf none u.outer)
    (JsonSelect.scripts (Level.namingOf none u.outer) u.outer.json))) ++ "FROM "

/-- What stands in the parentheses. -/
def memberText (schema : String) (u : Union) : String :=
  String.ofList (written schema (.text "\n" :: joined u.separator (u.members.map memberScript)))

/-- A union without errors has two members at least, a plan, and no errors in its members. -/
theorem exists_plan {u : Union} (h : failure? u.script = none) :
    2 ≤ u.members.length ∧ (∃ p, u.outer.plan none = .ok p) ∧
      ∀ query ∈ u.members, failure? (query.script none) = none := by
  rw [failure?_script] at h
  split at h
  · cases h
  · next hCount =>
    cases hPlan : u.outer.plan none with
    | error e => rw [hPlan] at h; cases h
    | ok p =>
      rw [hPlan] at h
      simp only [Option.or_eq_none_iff, List.findSome?_eq_none_iff] at h
      exact ⟨by omega, ⟨p, rfl⟩, h.2.1⟩

/-- A compiled union is its members in parentheses, with an alias and the other clauses behind. -/
theorem exists_sql_eq {u : Union} {c : Compiled}
    (h : (Statement.union u).compile schema = .ok c) :
    ∃ back, c.sql = u.frontText schema ++ "(" ++ u.memberText schema ++ ") " ++ back := by
  obtain ⟨hNone, rfl⟩ := compile_eq_ok_iff.mp h
  obtain ⟨hCount, ⟨p, hPlan⟩, -⟩ := exists_plan hNone
  have hNaming : Level.namingOf none u.outer = p.naming := by rw [Level.namingOf, hPlan]
  obtain ⟨back, hWritten⟩ : ∃ back, written schema u.script
      = (u.frontText schema ++ "(" ++ u.memberText schema ++ ")").toList ++ [' '] ++ back := by
    rw [script, if_neg (by omega), hPlan]
    refine ⟨(name p.naming).toList ++ '\n' :: (written schema (Join.scripts p.naming p.joins)
      ++ written schema (whereScript p.naming none u.outer.source.row
        (u.outer.filter.terms p.naming))
      ++ written schema (u.outer.selection.tailScript p.naming)), ?_⟩
    simp [frontText, memberText, hNaming]
  refine ⟨String.ofList (dropEndWhile (· == '\n') back), String.toList_injective ?_⟩
  have hSql : (compiled schema u.script).sql.toList
      = dropEndWhile (· == '\n') (written schema u.script) := String.toList_ofList
  rw [show (Statement.union u).script = u.script from rfl, hSql, hWritten,
    dropEndWhile_concat_append _ _ (by decide)]
  simp

/-- What is said of order and number in each member. -/
def tails (u : Union) : List (List Token) := u.members.map Select.ownTail

/-- The members in parentheses of their own. -/
def enclosedText (schema : String) (u : Union) : String :=
  "\n" ++ u.separator.intercalate
    (u.members.map fun query =>
      "(" ++ String.ofList (nestedText schema (query.script none)) ++ ")\n")

/-- The members of a union are written without parentheses, so that no ORDER BY or LIMIT is read as
theirs: the last one's is read as that of the union, and one of another member is not allowed.  The
reading is the one that was asked for just if no member has either. -/
theorem tails_of_compile {schema : String} {u : Union} {c : Compiled}
    (h : (Statement.union u).compile schema = .ok c) (hSchema : Tame schema)
    (hTexts : ∀ query ∈ u.members, ∀ t ∈ query.texts, Tame t) :
    (∃ back, c.sql = u.frontText schema ++ "(" ++ u.memberText schema ++ ") " ++ back) ∧
    Whole (u.memberText schema).toList ∧
    unionTails? (u.memberText schema).toList
      = (if ∀ t ∈ u.tails.dropLast, t = [] then
          some (u.tails.map fun _ => [], u.tails.getLast?.getD [])
        else none) ∧
    (unionTails? (u.memberText schema).toList = some (u.tails, []) ↔
      ∀ query ∈ u.members, query.selection.order = [] ∧ ¬ 0 < query.selection.limit) ∧
    unionTails? (u.enclosedText schema).toList = some (u.tails, []) := by
  obtain ⟨hNone, -⟩ := compile_eq_ok_iff.mp h
  obtain ⟨hCount, -, hFailures⟩ := exists_plan hNone
  have hSep := u.isSeparator_separator
  have hNe : u.members ≠ [] := List.ne_nil_of_length_pos (by omega)
  have hNeTexts : u.members.map (fun query => written schema (memberScript query)) ≠ [] := by
    simpa using hNe
  have hMember : ∀ m ∈ u.members.map (fun query => written schema (memberScript query)),
      IsMember m :=
    List.forall_mem_map.mpr fun query hQuery =>
      Select.isMember_memberScript hSchema (hTexts query hQuery) (hFailures query hQuery)
  have hTails : (u.members.map fun query => written schema (memberScript query)).map
      (fun m => memberTail (tokens m)) = u.tails.map (⟨[], ·⟩) := by
    rw [tails, List.map_map, List.map_map]
    exact List.map_congr_left fun query hQuery =>
      Select.memberTail_memberScript hSchema (hTexts query hQuery) (hFailures query hQuery)
  have hText : (u.memberText schema).toList = '\n' :: u.separator.toList.intercalate
      (u.members.map fun query => written schema (memberScript query)) := by
    simp [memberText, written_joined, Function.comp_def]
  have hEnclosed : (u.enclosedText schema).toList = '\n' :: u.separator.toList.intercalate
      ((u.members.map fun query => nestedText schema (query.script none)).map enclosed) := by
    simp [enclosedText, enclosed, String.toList_intercalate, Function.comp_def]
  have hRead := unionTails?_of_loose hSep hNeTexts hMember hTails
  refine ⟨exists_sql_eq h, ?_, ?_, ?_, ?_⟩
  · rw [hText]
    exact (by decide : Whole ['\n']).append (whole_members hSep hMember)
  · rw [hText, hRead]
  · rw [hText, hRead, loose_eq_own_iff, tails, List.forall_mem_map]
    exact forall₂_congr fun query hQuery =>
      (Select.ownTail_spec (hTexts query hQuery) (hFailures query hQuery)).1
  · rw [hEnclosed, unionTails?_of_enclosed hSep (by simpa using hNe)
      (List.forall_mem_map.mpr fun query hQuery =>
        Select.whole_nestedText hSchema (hTexts query hQuery)), List.map_map]
    refine congrArg (fun tails => some (tails, [])) (List.map_congr_left fun query hQuery => ?_)
    exact Select.clauseTail_nestedText hSchema (hTexts query hQuery) (hFailures query hQuery)

/-- The five dearest invoices, and some credit notes.  Only the tail of the first member is on the
surface: a literal and a subquery of the other one have none. -/
def ranked : Union :=
  allRows
    |>.member ((Select.ofTable "invoice").fields [.plain "id"]
      |>.orderBy [.desc "total"] |>.limit 0 5)
    |>.member ((Select.ofTable "credit_note").fields [.plain "id"]
      |>.join ⟨.inner, "client", "c", "id", "client_id", [.fixed "kind" (.text "ORDER BY (")]⟩
      |>.filtered (Filter.any.condition "id" (.inSubquery ((Select.ofTable "recent").fields
        [.plain "note_id"] |>.orderBy [.asc "day"] |>.limit 0 7))))
    |>.refine (·.fields [.plain "id"])

theorem tails_of_compile_ranked : ∃ c, (Statement.union ranked).compile "shop" = .ok c ∧
    ranked.tails = [clauseTail (tokens "ORDER BY total DESC LIMIT 0,5".toList), []] ∧
    unionTails? (ranked.memberText "shop").toList = none ∧
    unionTails? (ranked.enclosedText "shop").toList = some (ranked.tails, []) := by
  obtain ⟨c, hCompile⟩ : ∃ c, (Statement.union ranked).compile "shop" = .ok c := ⟨_, rfl⟩
  have hTexts : ∀ query ∈ ranked.members, ∀ t ∈ query.texts, Tame t := by decide +kernel
  have hTails :
      ranked.tails = [clauseTail (tokens "ORDER BY total DESC LIMIT 0,5".toList), []] := by
    decide +kernel
  have hFirst : ¬ ∀ t ∈ ranked.tails.dropLast, t = [] := by
    rw [hTails]
    decide +kernel
  obtain ⟨-, -, hRead, -, hEnclosed⟩ := tails_of_compile hCompile (by decide +kernel) hTexts
  exact ⟨c, hCompile, hTails, by rw [hRead, if_neg hFirst], hEnclosed⟩

/-- All invoices, and the five latest credit notes. -/
def latest : Union :=
  distinctRows
    |>.member ((Select.ofTable "invoice").fields [.plain "id"])
    |>.member ((Select.ofTable "credit_note").fields [.plain "id"]
      |>.orderBy [.desc "id"] |>.limit 0 5)
    |>.refine (·.fields [.plain "id"])

/-- The order and the number of the credit notes are read as those of all rows. -/
theorem not_keepsTails_latest : ∃ c, (Statement.union latest).compile "" = .ok c ∧
    c.sql = "SELECT id\nFROM (\nSELECT id\nFROM .invoice\nUNION\nSELECT id\nFROM .credit_note\n"
      ++ "ORDER BY id DESC\nLIMIT 0,5\n) t" ∧
    latest.memberText "" = "\nSELECT id\nFROM .invoice\nUNION\nSELECT id\nFROM .credit_note\n"
      ++ "ORDER BY id DESC\nLIMIT 0,5\n" ∧
    latest.tails = [[], clauseTail (tokens "ORDER BY id DESC LIMIT 0,5".toList)] ∧
    unionTails? (latest.memberText "").toList
      = some ([[], []], clauseTail (tokens "ORDER BY id DESC LIMIT 0,5".toList)) ∧
    unionTails? (latest.memberText "").toList ≠ some (latest.tails, []) :=
  ⟨_, rfl, by decide +kernel, by decide +kernel, by decide +kernel, by decide +kernel,
    by decide +kernel⟩

end Union

end SqlStatement
