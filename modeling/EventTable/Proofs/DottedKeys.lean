/-
  EventTable — the dotted keys of texts in groups.

  * `TextAt` says where a text stands: in which groups, from the outermost one
    inward, and under which name of its own; `dottedKey` is the key for that place;
  * `mem_entryPairs_iff`: flattening finds the texts that stand in the tree, under
    their keys, and `nodup_keys_entryPairs`: each of them once, if no two have the
    same key (`Unambiguous`);
  * `Reordered` relates trees whose groups list the same entries in another order,
    and `LosesGroup` trees of which one lacks a group without texts;
    `perm_entryPairs` and `entryPairs_of_losesGroup` say what is left of either;
  * `stringTable?_fields`: a tree written as data is read, and flattened, again, and
    `exists_namedOnce_of_stringTable?`: nothing else is read;
  * `texts_in_groups_have_dotted_keys` puts these together.
-/
import EventTable.Proofs.Dictionaries
import EventTable.Settings.Reader

namespace EventTable.StringTree

/-! ## Places of texts -/

/-- **A text stands in groups under a name.**  The groups are listed from the outermost
    one inward. -/
inductive TextAt : List (String × StringTree) → List String → String → String → Prop
  | own {entries name s} : (name, .text s) ∈ entries → TextAt entries [] name s
  | within {entries group members groups name s} : (group, .group members) ∈ entries →
      TextAt members groups name s → TextAt entries (group :: groups) name s

/-- The names on the way to a text, joined with dots; groups without a name do not count
    until there is one with a name. -/
def dottedKey (groups : List String) (name : String) : String :=
  ".".intercalate (groups.dropWhile String.isEmpty ++ [name])

/-- Different texts have different keys. -/
def Unambiguous (entries : List (String × StringTree)) : Prop :=
  ∀ groups name s groups' name' s', TextAt entries groups name s → TextAt entries groups' name' s' →
    dottedKey groups name = dottedKey groups' name' → groups = groups' ∧ name = name'

/-- **No group has two entries of one name.** -/
inductive NamedOnce : List (String × StringTree) → Prop
  | nil : NamedOnce []
  | text {name s r} : name ∉ r.map Prod.fst → NamedOnce r → NamedOnce ((name, .text s) :: r)
  | group {name members r} : name ∉ r.map Prod.fst → NamedOnce members → NamedOnce r →
      NamedOnce ((name, .group members) :: r)

theorem NamedOnce.nodup {entries : List (String × StringTree)} (h : NamedOnce entries) :
    (entries.map Prod.fst).Nodup := by
  induction h with
  | nil => exact .nil
  | text hname _ ih => exact List.nodup_cons.2 ⟨hname, ih⟩
  | group hname _ _ _ ih => exact List.nodup_cons.2 ⟨hname, ih⟩

/-- The entries of a group, one after the other and each group before what follows it. -/
@[elab_as_elim]
theorem entries_induction {motive : List (String × StringTree) → Prop} (nil : motive [])
    (text : ∀ name s r, motive r → motive ((name, .text s) :: r))
    (group : ∀ name members r, motive members → motive r → motive ((name, .group members) :: r)) :
    ∀ entries, motive entries
  | [] => nil
  | (name, .text s) :: r => text name s r (entries_induction nil text group r)
  | (name, .group members) :: r => group name members r (entries_induction nil text group members)
      (entries_induction nil text group r)

section
variable {name : String} {r : List (String × StringTree)} {groups : List String} {n s : String}

@[simp] theorem not_textAt_nil : ¬ TextAt [] groups n s := by
  intro h
  cases h with
  | own hm => cases hm
  | within hm _ => cases hm

@[simp] theorem textAt_text_iff {t : String} : TextAt ((name, .text t) :: r) groups n s ↔
    (groups = [] ∧ n = name ∧ s = t) ∨ TextAt r groups n s := by
  constructor
  · intro h
    cases h with
    | own hm =>
      rcases List.mem_cons.1 hm with heq | hm
      · cases heq
        exact .inl ⟨rfl, rfl, rfl⟩
      · exact .inr (.own hm)
    | within hm h => exact .inr (.within ((List.mem_cons.1 hm).resolve_left nofun) h)
  · rintro (⟨rfl, rfl, rfl⟩ | h)
    · exact .own List.mem_cons_self
    · cases h with
      | own hm => exact .own (List.mem_cons_of_mem _ hm)
      | within hm h => exact .within (List.mem_cons_of_mem _ hm) h

@[simp] theorem textAt_group_iff {members : List (String × StringTree)} :
    TextAt ((name, .group members) :: r) groups n s ↔
      (∃ inner, groups = name :: inner ∧ TextAt members inner n s) ∨ TextAt r groups n s := by
  constructor
  · intro h
    cases h with
    | own hm => exact .inr (.own ((List.mem_cons.1 hm).resolve_left nofun))
    | within hm h =>
      rcases List.mem_cons.1 hm with heq | hm
      · cases heq
        exact .inl ⟨_, rfl, h⟩
      · exact .inr (.within hm h)
  · rintro (⟨inner, rfl, h⟩ | h)
    · exact .within List.mem_cons_self h
    · cases h with
      | own hm => exact .own (List.mem_cons_of_mem _ hm)
      | within hm h => exact .within (List.mem_cons_of_mem _ hm) h

end

/-! ## Keys -/

theorem joinKey_of_ne {group : String} (h : group ≠ "") (name : String) :
    joinKey group name = group ++ "." ++ name := by
  rw [joinKey, if_neg]
  simpa using h

/-- The key of a text in groups that themselves stand under a key. -/
def keyUnder (key : String) (groups : List String) (name : String) : String :=
  joinKey (groups.foldl joinKey key) name

theorem keyUnder_of_ne {key : String} (h : key ≠ "") (groups : List String) (name : String) :
    keyUnder key groups name = ".".intercalate (key :: groups ++ [name]) := by
  induction groups generalizing key with
  | nil => exact joinKey_of_ne h name
  | cons group groups ih =>
    have hkey : joinKey key group = key ++ "." ++ group := joinKey_of_ne h group
    have hne : joinKey key group ≠ "" := by
      rw [hkey]
      simp
    calc keyUnder (joinKey key group) groups name
        = ".".intercalate (joinKey key group :: groups ++ [name]) := ih hne
      _ = key ++ "." ++ ".".intercalate (group :: groups ++ [name]) := by
        rw [hkey, List.cons_append, String.intercalate_cons_append, List.cons_append]
      _ = ".".intercalate (key :: group :: groups ++ [name]) := by
        rw [List.cons_append, List.cons_append, List.cons_append, String.intercalate_cons_cons]

/-- Joining name by name gives the dotted key. -/
theorem keyUnder_empty (groups : List String) (name : String) :
    keyUnder "" groups name = dottedKey groups name := by
  induction groups with
  | nil => exact String.intercalate_singleton.symm
  | cons group groups ih =>
    by_cases h : group = ""
    · subst h
      exact ih
    · have hjoin : joinKey "" group = group := rfl
      have hdrop : (group :: groups).dropWhile String.isEmpty = group :: groups := by
        rw [List.dropWhile_cons_of_neg]
        simpa using h
      calc keyUnder (joinKey "" group) groups name
          = ".".intercalate (group :: groups ++ [name]) := by rw [hjoin, keyUnder_of_ne h]
        _ = dottedKey (group :: groups) name := by rw [dottedKey, hdrop]

/-! ## What flattening finds -/

theorem entryPairs_nil (key : String) : entryPairs key [] = [] := by rw [entryPairs]

theorem entryPairs_text (key name s : String) (r : List (String × StringTree)) :
    entryPairs key ((name, .text s) :: r) = (joinKey key name, s) :: entryPairs key r := by
  rw [entryPairs, pairs, List.singleton_append]

theorem entryPairs_group (key name : String) (members r : List (String × StringTree)) :
    entryPairs key ((name, .group members) :: r) =
      entryPairs (joinKey key name) members ++ entryPairs key r := by
  rw [entryPairs, pairs]

/-- Flattening finds the texts of the tree under their keys. -/
theorem mem_entryPairs_iff {entries : List (String × StringTree)} {key k s : String} :
    (k, s) ∈ entryPairs key entries ↔
      ∃ groups name, TextAt entries groups name s ∧ k = keyUnder key groups name := by
  induction entries using entries_induction generalizing key with
  | nil => simp [entryPairs_nil]
  | text name t r ih =>
    rw [entryPairs_text, List.mem_cons, ih, Prod.mk.injEq]
    constructor
    · rintro (⟨rfl, rfl⟩ | ⟨groups, n, h, rfl⟩)
      · exact ⟨[], name, textAt_text_iff.2 (.inl ⟨rfl, rfl, rfl⟩), rfl⟩
      · exact ⟨groups, n, textAt_text_iff.2 (.inr h), rfl⟩
    · rintro ⟨groups, n, h, rfl⟩
      rcases textAt_text_iff.1 h with ⟨rfl, rfl, rfl⟩ | h
      · exact .inl ⟨rfl, rfl⟩
      · exact .inr ⟨groups, n, h, rfl⟩
  | group name members r ihm ihr =>
    rw [entryPairs_group, List.mem_append, ihm, ihr]
    constructor
    · rintro (⟨groups, n, h, rfl⟩ | ⟨groups, n, h, rfl⟩)
      · exact ⟨name :: groups, n, textAt_group_iff.2 (.inl ⟨groups, rfl, h⟩), rfl⟩
      · exact ⟨groups, n, textAt_group_iff.2 (.inr h), rfl⟩
    · rintro ⟨groups, n, h, rfl⟩
      rcases textAt_group_iff.1 h with ⟨inner, rfl, hm⟩ | hr
      · exact .inl ⟨inner, n, hm, rfl⟩
      · exact .inr ⟨groups, n, hr, rfl⟩

/-- Different texts have different keys under the key of all of them. -/
def UnambiguousUnder (key : String) (entries : List (String × StringTree)) : Prop :=
  ∀ groups name s groups' name' s', TextAt entries groups name s → TextAt entries groups' name' s' →
    keyUnder key groups name = keyUnder key groups' name' → groups = groups' ∧ name = name'

theorem unambiguousUnder_empty {entries : List (String × StringTree)} :
    UnambiguousUnder "" entries ↔ Unambiguous entries := by
  simp only [UnambiguousUnder, Unambiguous, keyUnder_empty]

/-- Flattening finds no key twice if different texts have different keys. -/
theorem nodup_keys_entryPairs {entries : List (String × StringTree)} (hn : NamedOnce entries)
    {key : String} (h : UnambiguousUnder key entries) :
    ((entryPairs key entries).map Prod.fst).Nodup := by
  induction hn generalizing key with
  | nil => simp [entryPairs_nil]
  | @text name s r hname _ ih =>
    rw [entryPairs_text, List.map_cons, List.nodup_cons]
    refine ⟨fun hk => ?_, ih fun groups n s groups' n' s' ht ht' => h groups n s groups' n' s'
      (textAt_text_iff.2 (.inr ht)) (textAt_text_iff.2 (.inr ht'))⟩
    obtain ⟨⟨k, s'⟩, hp, rfl⟩ := List.mem_map.1 hk
    obtain ⟨groups, n, ht, hkey⟩ := mem_entryPairs_iff.1 hp
    obtain ⟨rfl, rfl⟩ := h [] name s groups n s' (textAt_text_iff.2 (.inl ⟨rfl, rfl, rfl⟩))
      (textAt_text_iff.2 (.inr ht)) hkey
    -- a text of the same key would stand under the same name in the rest
    cases ht with
    | own hm => exact hname (List.mem_map_of_mem hm)
  | @group name members r hname _ _ ihm ihr =>
    have hin : ∀ {groups n s}, TextAt members groups n s →
        TextAt ((name, .group members) :: r) (name :: groups) n s :=
      fun ht => textAt_group_iff.2 (.inl ⟨_, rfl, ht⟩)
    have hout : ∀ {groups n s}, TextAt r groups n s →
        TextAt ((name, .group members) :: r) groups n s := fun ht => textAt_group_iff.2 (.inr ht)
    rw [entryPairs_group, List.map_append, List.nodup_append]
    refine ⟨ihm fun groups n s groups' n' s' ht ht' hkey => ?_,
      ihr fun groups n s groups' n' s' ht ht' => h groups n s groups' n' s' (hout ht) (hout ht'),
      fun k hk k' hk' hkk' => ?_⟩
    · obtain ⟨hgroups, hn⟩ := h _ n s _ n' s' (hin ht) (hin ht') hkey
      exact ⟨(List.cons.inj hgroups).2, hn⟩
    · obtain ⟨⟨k, s⟩, hp, rfl⟩ := List.mem_map.1 hk
      obtain ⟨⟨k', s'⟩, hp', rfl⟩ := List.mem_map.1 hk'
      obtain ⟨groups, n, ht, hkey⟩ := mem_entryPairs_iff.1 hp
      obtain ⟨groups', n', ht', hkey'⟩ := mem_entryPairs_iff.1 hp'
      obtain ⟨rfl, rfl⟩ := h _ n s groups' n' s' (hin ht) (hout ht')
        (hkey.symm.trans (hkk'.trans hkey'))
      -- a text of the same key would stand in a group of the same name in the rest
      cases ht' with
      | within hm _ => exact hname (List.mem_map_of_mem hm)

theorem flatten_eq {entries : List (String × StringTree)} (hn : NamedOnce entries)
    (h : Unambiguous entries) : flatten entries = entryPairs "" entries :=
  Dictionary.ofPairs_eq_self (nodup_keys_entryPairs hn (unambiguousUnder_empty.2 h))

/-! ## Trees with the same texts -/

/-- **The same entries in another order**, in any of the groups. -/
inductive Reordered : List (String × StringTree) → List (String × StringTree) → Prop
  | nil : Reordered [] []
  | text {name s r r'} : Reordered r r' → Reordered ((name, .text s) :: r) ((name, .text s) :: r')
  | group {name members members' r r'} : Reordered members members' → Reordered r r' →
      Reordered ((name, .group members) :: r) ((name, .group members') :: r')
  | swap {e e' r} : Reordered (e :: e' :: r) (e' :: e :: r)
  | trans {r r' r''} : Reordered r r' → Reordered r' r'' → Reordered r r''

/-- **The same entries but for one group**, at any depth, in which no text stands. -/
inductive LosesGroup : List (String × StringTree) → List (String × StringTree) → Prop
  | here {name members r} : (∀ groups n s, ¬ TextAt members groups n s) →
      LosesGroup ((name, .group members) :: r) r
  | later {e r r'} : LosesGroup r r' → LosesGroup (e :: r) (e :: r')
  | within {name members members' r} : LosesGroup members members' →
      LosesGroup ((name, .group members) :: r) ((name, .group members') :: r)

theorem entryPairs_cons (key : String) (e : String × StringTree) (r : List (String × StringTree)) :
    entryPairs key (e :: r) = pairs (joinKey key e.1) e.2 ++ entryPairs key r := by
  rw [entryPairs]

theorem perm_entryPairs {entries entries' : List (String × StringTree)}
    (h : Reordered entries entries') (key : String) :
    (entryPairs key entries').Perm (entryPairs key entries) := by
  induction h generalizing key with
  | nil => exact .refl _
  | text _ ih =>
    rw [entryPairs_text, entryPairs_text]
    exact (ih key).cons _
  | group _ _ ihm ihr =>
    rw [entryPairs_group, entryPairs_group]
    exact (ihm _).append (ihr key)
  | @swap e e' r =>
    rw [entryPairs_cons, entryPairs_cons, entryPairs_cons, entryPairs_cons, ← List.append_assoc,
      ← List.append_assoc]
    exact List.perm_append_comm.append_right _
  | trans _ _ ih ih' => exact (ih' key).trans (ih key)

theorem entryPairs_of_losesGroup {entries entries' : List (String × StringTree)}
    (h : LosesGroup entries entries') (key : String) :
    entryPairs key entries = entryPairs key entries' := by
  induction h generalizing key with
  | @here name members r hnone =>
    have hnil : entryPairs (joinKey key name) members = [] :=
      List.eq_nil_iff_forall_not_mem.2 fun p hp =>
        have ⟨groups, n, ht, _⟩ := mem_entryPairs_iff.1 hp
        hnone groups n p.2 ht
    rw [entryPairs_group, hnil, List.nil_append]
  | later _ ih => rw [entryPairs_cons, entryPairs_cons, ih]
  | within _ ih => rw [entryPairs_group, entryPairs_group, ih]

/-- Without groups every text has its own name as key. -/
theorem entryPairs_texts (table : List (String × String)) :
    entryPairs "" (table.map fun p => (p.1, .text p.2)) = table := by
  induction table with
  | nil => exact entryPairs_nil ""
  | cons p table ih => rw [List.map_cons, entryPairs_text, ih]; rfl

/-! ## Trees as data -/

mutual

/-- A tree written as data. -/
def datum : StringTree → Datum
  | .text s => .text s
  | .group entries => .table (fields entries)

/-- The entries of a group, written as fields. -/
def fields : List (String × StringTree) → List (String × Datum)
  | [] => []
  | (name, t) :: r => (name, datum t) :: fields r

end

/-- What was written as data is read again. -/
theorem entries?_fields {entries : List (String × StringTree)} (h : NamedOnce entries) :
    entries? (fields entries) = some entries := by
  induction h with
  | nil => rfl
  | text _ _ ih => simp [fields, datum, entries?, ofDatum?, ih]
  | group _ hm _ ihm ih =>
    simp [fields, datum, entries?, ofDatum?, ihm, ih, Dictionary.ofPairs_eq_self hm.nodup]

theorem namedOnce_of_nodup {entries : List (String × StringTree)}
    (hn : (entries.map Prod.fst).Nodup)
    (h : ∀ name members, (name, .group members) ∈ entries → NamedOnce members) :
    NamedOnce entries := by
  induction entries with
  | nil => exact .nil
  | cons e r ih =>
    obtain ⟨name, t⟩ := e
    obtain ⟨hname, hr⟩ := List.nodup_cons.1 hn
    have hrest := ih hr fun n members hm => h n members (List.mem_cons_of_mem _ hm)
    cases t with
    | text s => exact .text hname hrest
    | group members => exact .group hname (h name members List.mem_cons_self) hrest

/-- No group that is read has two entries of one name. -/
theorem namedOnce_of_entries? (fs : List (String × Datum)) {entries : List (String × StringTree)}
    (h : entries? fs = some entries) {name : String} {members : List (String × StringTree)}
    (hm : (name, .group members) ∈ entries) : NamedOnce members := by
  match fs with
  | [] => cases h; cases hm
  | (n, d) :: r =>
    simp only [entries?, Option.bind_eq_bind, Option.bind_eq_some_iff] at h
    obtain ⟨t, ht, rest, hrest, heq⟩ := h
    cases heq
    rcases List.mem_cons.1 hm with heq | hm
    · cases heq
      cases d with
      | table fs' =>
        rw [ofDatum?, Option.map_eq_some_iff] at ht
        obtain ⟨es, hes, heq⟩ := ht
        cases heq
        exact namedOnce_of_nodup (Dictionary.nodup_keys_ofPairs es) fun _ _ hm' =>
          namedOnce_of_entries? fs' hes (Dictionary.mem_of_mem_ofPairs hm')
      | _ => cases ht
    · exact namedOnce_of_entries? r hrest hm

/-- What is read as a table was flattened from a tree. -/
theorem exists_namedOnce_of_stringTable? {d : Datum} {table : List (String × String)}
    (h : stringTable? d = some table) : ∃ entries, NamedOnce entries ∧ table = flatten entries := by
  cases d with
  | table fs =>
    obtain ⟨es, hes, rfl⟩ := Option.map_eq_some_iff.1 h
    exact ⟨_, namedOnce_of_nodup (Dictionary.nodup_keys_ofPairs es) fun _ _ hm =>
      namedOnce_of_entries? fs hes (Dictionary.mem_of_mem_ofPairs hm), rfl⟩
  | _ => cases h

theorem stringTable?_fields {entries : List (String × StringTree)} (h : NamedOnce entries) :
    stringTable? (.table (fields entries)) = some (flatten entries) := by
  rw [stringTable?, entries?_fields h, Option.map_some, Dictionary.ofPairs_eq_self h.nodup]

/-! ## Flattening -/

/-- **Texts in groups have dotted keys.**  Where no two texts have the same key, the table
    holds every text of the tree once, under the names on the way to it, and nothing
    else; the order of the entries of a group does not matter; and it is the table that
    is read from the tree written as data, as every table that is read comes from such a
    tree.  A group without texts adds nothing, wherever it stands, and a table without
    groups stays as it is. -/
theorem texts_in_groups_have_dotted_keys :
    (∀ entries, NamedOnce entries → Unambiguous entries →
      ((flatten entries).map Prod.fst).Nodup ∧
      (∀ key s, (key, s) ∈ flatten entries ↔
        ∃ groups name, TextAt entries groups name s ∧ key = dottedKey groups name) ∧
      (∀ entries', Reordered entries entries' → (flatten entries').Perm (flatten entries) ∧
        ∀ key, (flatten entries').lookup key = (flatten entries).lookup key) ∧
      stringTable? (.table (fields entries)) = some (flatten entries)) ∧
    (∀ d table, stringTable? d = some table →
      ∃ entries, NamedOnce entries ∧ table = flatten entries) ∧
    (∀ entries entries', LosesGroup entries entries' → flatten entries = flatten entries') ∧
    ∀ table : List (String × String), (table.map Prod.fst).Nodup →
      flatten (table.map fun p => (p.1, .text p.2)) = table := by
  refine ⟨fun entries hn h => ?texts, fun d table => exists_namedOnce_of_stringTable?,
    fun entries entries' h => ?group, fun table h => ?flat⟩
  case texts =>
    have hnodup := nodup_keys_entryPairs hn (unambiguousUnder_empty.2 h)
    rw [flatten_eq hn h]
    refine ⟨hnodup, fun key s => ?_, fun entries' hr => ?_, ?_⟩
    · rw [mem_entryPairs_iff]
      simp only [keyUnder_empty]
    · have hperm := perm_entryPairs hr ""
      have hself : flatten entries' = entryPairs "" entries' :=
        Dictionary.ofPairs_eq_self ((hperm.map Prod.fst).nodup_iff.2 hnodup)
      rw [hself]
      exact ⟨hperm, Dictionary.lookup_perm hperm hnodup⟩
    · rw [stringTable?_fields hn, flatten_eq hn h]
  case group =>
    rw [flatten, flatten, entryPairs_of_losesGroup h]
  case flat =>
    rw [flatten, entryPairs_texts, Dictionary.ofPairs_eq_self h]

/-- Groups without a name, a name with a dot, and an empty group. -/
theorem nameless_groups_are_left_out :
    let inner : List (String × StringTree) := [("d.e", .text "z"), ("f", .group [])]
    let entries : List (String × StringTree) :=
      [("", .group [("", .group [("a", .text "x")]), ("b", .text "y")]), ("c", .group inner)]
    let reordered : List (String × StringTree) :=
      [("c", .group inner), ("", .group [("", .group [("a", .text "x")]), ("b", .text "y")])]
    let without : List (String × StringTree) :=
      [("", .group [("", .group [("a", .text "x")]), ("b", .text "y")]),
        ("c", .group [("d.e", .text "z")])]
    let table : List (String × String) := [("a", "x"), ("b", "y"), ("c.d.e", "z")]
    NamedOnce entries ∧ Unambiguous entries ∧ Reordered entries reordered ∧
      LosesGroup entries without ∧ (table.map Prod.fst).Nodup ∧
      (∀ key s, (key, s) ∈ table ↔
        ∃ groups name, TextAt entries groups name s ∧ key = dottedKey groups name) ∧
      (flatten reordered).Perm table ∧ flatten without = table ∧
      flatten (table.map fun p => (p.1, .text p.2)) = table := by
  intro inner entries reordered without table
  have hn : NamedOnce entries :=
    .group (by decide) (.group (by decide) (.text (by decide) .nil) (.text (by decide) .nil))
      (.group (by decide) (.text (by decide) (.group (by decide) .nil .nil)) .nil)
  -- the places of all texts, whose keys are compared one by one
  have hplaces : ∀ groups name s, TextAt entries groups name s →
      (groups, name) ∈ [(["", ""], "a"), ([""], "b"), (["c"], "d.e")] := by
    intro groups name s h
    simp only [entries, inner, textAt_group_iff, textAt_text_iff, not_textAt_nil, or_false] at h
    rcases h with ⟨_, rfl, ⟨_, rfl, rfl, rfl, -⟩ | ⟨rfl, rfl, -⟩⟩ | ⟨_, rfl, ⟨rfl, rfl, -⟩ | h⟩
    · decide
    · decide
    · decide
    · simp at h
  have hu : Unambiguous entries := by
    intro groups name s groups' name' s' h h' hkey
    have hall : ∀ p ∈ [(["", ""], "a"), ([""], "b"), (["c"], "d.e")],
        ∀ q ∈ [(["", ""], "a"), ([""], "b"), (["c"], "d.e")],
        dottedKey p.1 p.2 = dottedKey q.1 q.2 → p = q := by decide
    exact Prod.mk.inj (hall _ (hplaces groups name s h) _ (hplaces groups' name' s' h') hkey)
  have hr : Reordered entries reordered := .swap
  have hl : LosesGroup entries without := .later (.within (.later (.here (by simp))))
  have htable : (table.map Prod.fst).Nodup := by decide
  have hflat : flatten entries = table := by decide
  obtain ⟨htexts, -, hgroup, hsame⟩ := texts_in_groups_have_dotted_keys
  obtain ⟨-, hmem, hperm, -⟩ := htexts entries hn hu
  rw [hflat] at hmem hperm
  exact ⟨hn, hu, hr, hl, htable, hmem, (hperm reordered hr).1,
    (hgroup entries without hl).symm.trans hflat, hsame table htable⟩

end EventTable.StringTree
