import Mathlib.Data.Finset.Card
import Mathlib.Data.List.Basic
import Mathlib.Data.List.Induction
import TenantGate.Proofs.ByteOrder
import TenantGate.Proofs.JsonMembers
import TenantGate.Proofs.WireFormats

/-!
The settings of a tenant over whole histories of writes and of texts that are read. What counts for
a name is the last write since the last text that could be read, or else the last member of that
name in this text. Nothing else of the history is seen, neither in the order of the names nor in the
text that is written.
-/
namespace TenantGate

open Json Utf8

section Maps

variable {α : Type} {name : String} {value : α} {entries entries' : List (String × α)}

theorem Ascending.lookup_iff (ascending : Ascending entries) :
    entries.lookup name = some value ↔ (name, value) ∈ entries := by
  induction entries with
  | nil => exact ⟨nofun, nofun⟩
  | cons entry more ih =>
    obtain ⟨key, held⟩ := entry
    obtain ⟨above, later⟩ := List.pairwise_cons.mp ascending
    rw [List.mem_cons, Prod.mk.injEq, ← ih later]
    by_cases same : name = key
    · subst same
      have once : more.lookup name ≠ some value := fun found =>
        String.lt_irrefl name (above _ ((ih later).mp found))
      rw [List.lookup_cons_self, Option.some.injEq, or_iff_left once, and_iff_right rfl, eq_comm]
    · rw [List.lookup_cons, beq_eq_false_iff_ne.mpr same, or_iff_right fun both => same both.1]

theorem Ascending.ext (ascending : Ascending entries) (ascending' : Ascending entries')
    (same : ∀ name, entries.lookup name = entries'.lookup name) : entries = entries' := by
  have among (e : String × α) : e ∈ entries ↔ e ∈ entries' := by
    rw [← ascending.lookup_iff, ← ascending'.lookup_iff, same]
  have perm : entries.Perm entries' :=
    (List.perm_ext_iff_of_nodup (.of_map _ ascending.distinct) (.of_map _ ascending'.distinct)).mpr
      among
  refine List.Perm.eq_of_pairwise ?_ ascending ascending' perm
  intro e e' _ _ below above
  exact absurd above (String.lt_asymm below)

end Maps

namespace Settings

inductive Act where
  | addPlain (name value : String)
  | addEncrypted (name value : String)
  | insert (name : String) (setting : Setting)
  | parse (text : String)

/-- A text that cannot be read leaves the settings as they are. -/
def perform (settings : Settings) : Act → Settings
  | .addPlain name value => settings.addPlain name value
  | .addEncrypted name value => settings.addEncrypted name value
  | .insert name setting => settings.insert name setting
  | .parse text =>
    match format.readWhole text with
    | .ok read => read
    | .error _ => settings

def after (acts : List Act) : Settings := acts.foldl perform empty

def Act.write? : Act → Option (String × Setting)
  | addPlain name value => some (name, ⟨value, false⟩)
  | addEncrypted name value => some (name, ⟨value, true⟩)
  | insert name setting => some (name, setting)
  | parse _ => none

def writes (acts : List Act) : List (String × Setting) := acts.filterMap Act.write?

def lastOf (name : String) (members : List (String × Setting)) : Option Setting :=
  members.reverse.lookup name

/-- The text is an object whose entries are the members, in their order. -/
def Lists (text : String) (members : List (String × Setting)) : Prop :=
  ∃ (lead gap after : Gap) (entries : List Entry),
    encode text = lead.bytes ++ (objectBytes gap entries ++ after.bytes) ∧
      List.Forall₂ (Entry.Tells Setting.format) entries members

def Readable (text : String) : Prop := ∃ members, Lists text members

def Unread (acts : List Act) : Prop := ∀ text, .parse text ∈ acts → ¬ Readable text

/-- The members of the last text that could be read, and the acts since then; these are all acts
where there was no such text. -/
inductive Behind : List Act → List (String × Setting) → List Act → Prop where
  | start {acts : List Act} (unread : Unread acts) : Behind acts [] acts
  | text {before since : List Act} {text : String} {members : List (String × Setting)}
      (lists : Lists text members) (unread : Unread since) :
      Behind (before ++ .parse text :: since) members since

section Steps

variable {settings : Settings} {name : String} {setting : Setting}
  {members : List (String × Setting)} {text : String}

theorem get?_insert (other : String) :
    (settings.insert name setting).get? other =
      if other = name then some setting else settings.get? other :=
  lookup_insertEntry name other setting settings.entries

theorem lastOf_concat (members : List (String × Setting)) (m : String × Setting) :
    lastOf name (members ++ [m]) = if name = m.1 then some m.2 else lastOf name members := by
  rw [lastOf, List.reverse_append, List.reverse_singleton, List.singleton_append]
  by_cases same : name = m.1
  · subst same
    rw [List.lookup_cons_self, if_pos rfl]
  · rw [List.lookup_cons, beq_eq_false_iff_ne.mpr same, if_neg same, lastOf]

theorem ofEntries_concat (members : List (String × Setting)) (m : String × Setting) :
    ofEntries (members ++ [m]) = (ofEntries members).insert m.1 m.2 :=
  List.foldl_concat _ _ _ _

theorem get?_ofEntries (members : List (String × Setting)) :
    (ofEntries members).get? name = lastOf name members := by
  induction members using List.reverseRecOn with
  | nil => rfl
  | append_singleton members m ih => rw [ofEntries_concat, get?_insert, lastOf_concat, ih]

theorem Ordered.insert (ordered : settings.Ordered) (name : String) (setting : Setting) :
    (settings.insert name setting).Ordered := insertEntry_ascending ordered

theorem ordered_ofEntries (members : List (String × Setting)) : (ofEntries members).Ordered := by
  induction members using List.reverseRecOn with
  | nil => exact List.Pairwise.nil
  | append_singleton members m ih =>
    rw [ofEntries_concat]
    exact ih.insert m.1 m.2

theorem isolates_setting : Isolates Setting.format.read := by
  refine Isolates.map (isolates_record "TenantSetting" ?_) _ _
  exact ⟨isolates_readString _, trims_readString _, isolates_boolean, trims_boolean, trivial⟩

theorem readWhole_ok_iff {read : Settings} :
    format.readWhole text = .ok read ↔ ∃ members, Lists text members ∧ read = ofEntries members := by
  rw [Format.readWhole, format, map_readBytes_iff]
  exact exists_congr fun members => and_congr_left' <|
    members_readBytes_iff isolates_setting Setting.lawful.trims

theorem readable_iff : Readable text ↔ ∃ read, format.readWhole text = .ok read := by
  simp only [readWhole_ok_iff]
  constructor
  · rintro ⟨members, lists⟩
    exact ⟨_, members, lists, rfl⟩
  · rintro ⟨read, members, lists, _⟩
    exact ⟨members, lists⟩

theorem perform_text (lists : Lists text members) :
    settings.perform (.parse text) = ofEntries members := by
  rw [perform, readWhole_ok_iff.mpr ⟨members, lists, rfl⟩]

theorem perform_unreadable (unreadable : ¬ Readable text) :
    settings.perform (.parse text) = settings := by
  rw [perform]
  split
  · rename_i read found
    exact absurd (readable_iff.mpr ⟨read, found⟩) unreadable
  · rfl

theorem perform_write {act : Act} {m : String × Setting} (written : act.write? = some m) :
    settings.perform act = settings.insert m.1 m.2 := by
  cases act with
  | addPlain name value =>
    obtain rfl := Option.some.inj written
    rfl
  | addEncrypted name value =>
    obtain rfl := Option.some.inj written
    rfl
  | insert name setting =>
    obtain rfl := Option.some.inj written
    rfl
  | parse text => exact absurd written nofun

theorem perform_unread {act : Act} (unwritten : act.write? = none)
    (unread : ∀ text, act = .parse text → ¬ Readable text) : settings.perform act = settings := by
  cases act with
  | parse text => exact perform_unreadable (unread text rfl)
  | addPlain name value | addEncrypted name value | insert name setting =>
    exact absurd unwritten nofun

theorem Ordered.perform (ordered : settings.Ordered) (act : Act) :
    (settings.perform act).Ordered := by
  cases written : act.write? with
  | some m =>
    rw [perform_write written]
    exact ordered.insert m.1 m.2
  | none =>
    by_cases read : ∃ text members, act = .parse text ∧ Lists text members
    · obtain ⟨text, members, rfl, lists⟩ := read
      rw [perform_text lists]
      exact ordered_ofEntries members
    · rw [perform_unread written]
      · exact ordered
      · rintro text rfl ⟨members, lists⟩
        exact read ⟨text, members, rfl, lists⟩

end Steps

section Runs

variable {acts since : List Act} {members : List (String × Setting)}

theorem after_concat (acts : List Act) (act : Act) :
    after (acts ++ [act]) = (after acts).perform act :=
  List.foldl_concat _ _ _ _

theorem ordered_after (acts : List Act) : (after acts).Ordered := by
  induction acts using List.reverseRecOn with
  | nil => exact List.Pairwise.nil
  | append_singleton acts act ih =>
    rw [after_concat]
    exact ih.perform act

theorem unread_concat_iff {act : Act} :
    Unread (acts ++ [act]) ↔ Unread acts ∧ ∀ text, act = .parse text → ¬ Readable text := by
  simp only [Unread, List.mem_append, List.mem_singleton, or_imp, forall_and, eq_comm]

theorem writes_concat (acts : List Act) (act : Act) :
    writes (acts ++ [act]) = writes acts ++ act.write?.toList := by
  rw [writes, List.filterMap_append, List.filterMap_cons]
  cases act.write? <;> rfl

theorem get?_unread (unread : Unread since) (settings : Settings) (name : String) :
    (since.foldl perform settings).get? name =
      (lastOf name (writes since)).or (settings.get? name) := by
  induction since using List.reverseRecOn with
  | nil => rfl
  | append_singleton since act ih =>
    obtain ⟨unread, last⟩ := unread_concat_iff.mp unread
    rw [List.foldl_concat, writes_concat]
    cases written : act.write? with
    | some m =>
      rw [perform_write written, get?_insert, Option.toList_some, lastOf_concat, ih unread]
      split <;> rfl
    | none =>
      rw [perform_unread written last, Option.toList_none, List.append_nil, ih unread]

theorem get?_after (behind : Behind acts members since) (name : String) :
    (after acts).get? name = (lastOf name (writes since)).or (lastOf name members) := by
  cases behind with
  | start unread => exact get?_unread unread empty name
  | @text before since text members lists unread =>
    rw [after, List.foldl_append, List.foldl_cons, perform_text lists, get?_unread unread,
      get?_ofEntries]

theorem Behind.concat {act : Act} (behind : Behind acts members since)
    (unread : ∀ text, act = .parse text → ¬ Readable text) :
    Behind (acts ++ [act]) members (since ++ [act]) := by
  cases behind with
  | start none => exact .start (unread_concat_iff.mpr ⟨none, unread⟩)
  | text lists none =>
    rw [List.append_assoc, List.cons_append]
    exact .text lists (unread_concat_iff.mpr ⟨none, unread⟩)

theorem exists_behind (acts : List Act) : ∃ members since, Behind acts members since := by
  induction acts using List.reverseRecOn with
  | nil => exact ⟨[], [], .start nofun⟩
  | append_singleton acts act ih =>
    by_cases read : ∃ text members, act = .parse text ∧ Lists text members
    · obtain ⟨text, members, rfl, lists⟩ := read
      exact ⟨members, [], .text lists nofun⟩
    · obtain ⟨members, since, behind⟩ := ih
      refine ⟨members, since ++ [act], behind.concat ?_⟩
      rintro text rfl ⟨members, lists⟩
      exact read ⟨text, members, rfl, lists⟩

end Runs

section Laws

variable {acts acts' : List Act}

theorem names_after (acts : List Act) : ∃ names : Finset String,
    (∀ name, name ∈ names ↔ ((after acts).get? name).isSome) ∧
      (after acts).length = names.card := by
  have distinct := (ordered_after acts).distinct
  refine ⟨((after acts).entries.map Prod.fst).toFinset, fun name => ?_, ?_⟩
  · rw [Option.isSome_iff_exists, List.mem_toFinset, List.mem_map]
    constructor
    · rintro ⟨⟨_, setting⟩, among, rfl⟩
      exact ⟨setting, (ordered_after acts).lookup_iff.mpr among⟩
    · rintro ⟨setting, found⟩
      exact ⟨(name, setting), (ordered_after acts).lookup_iff.mp found, rfl⟩
  · rw [List.toFinset_card_of_nodup distinct, List.length_map, length]

theorem write_eq_iff : format.write (after acts) = format.write (after acts') ↔
    ∀ name, (after acts).get? name = (after acts').get? name := by
  constructor
  · intro same name
    -- either text is read back as the settings that it was written from
    have read := Settings.lawful.carries.returns _ (ordered_after acts)
    rw [same, Settings.lawful.carries.returns _ (ordered_after acts')] at read
    rw [Except.ok.inj read]
  · intro same
    have whole : after acts = after acts' :=
      congrArg Settings.mk ((ordered_after acts).ext (ordered_after acts') same)
    rw [whole]

structure Canonical (acts : List Act) : Prop where
  /-- There are members of a last text, which are none where no text could be read. -/
  behind : ∃ members since, Behind acts members since
  /-- What counts is the last write since that text, or else the last member in it. -/
  get : ∀ members since, Behind acts members since → ∀ name,
    (after acts).get? name = (lastOf name (writes since)).or (lastOf name members)
  ascending : (after acts).entries.Pairwise fun e e' => encode e.1 < encode e'.1
  entries : ∀ name setting,
    (name, setting) ∈ (after acts).entries ↔ (after acts).get? name = some setting
  length : ∃ names : Finset String,
    (∀ name, name ∈ names ↔ ((after acts).get? name).isSome) ∧ (after acts).length = names.card
  isEmpty : (after acts).isEmpty = true ↔ (after acts).length = 0
  /-- A text is read exactly if it is an object of settings, and changes nothing if it is not. -/
  readable : ∀ text, Readable text ↔ ∃ read, format.readWhole text = .ok read
  unreadable : ∀ text, ¬ Readable text → after (acts ++ [.parse text]) = after acts
  /-- Two histories write one text exactly if the same is found under each name. -/
  text : ∀ acts', format.write (after acts) = format.write (after acts') ↔
    ∀ name, (after acts).get? name = (after acts').get? name

/-- Settings are a map in canonical order, whatever is written and read. -/
theorem settings_are_canonical (acts : List Act) : Canonical acts where
  behind := exists_behind acts
  get members since behind name := get?_after behind name
  ascending := (ordered_after acts).imp fun below => encode_lt below
  entries name setting := (ordered_after acts).lookup_iff.symm
  length := names_after acts
  isEmpty := by rw [isEmpty, List.isEmpty_iff, length, List.length_eq_zero_iff]
  readable text := readable_iff
  unreadable text unreadable := by rw [after_concat, perform_unreadable unreadable]
  text acts' := write_eq_iff

/-- The later of two members counts, and what is no object changes nothing. -/
example : (after [.addPlain "b" "1",
      .parse "\x7b\"a\":\x7b\"value\":\"2\"\x7d,\"a\":\x7b\"value\":\"3\"\x7d\x7d",
      .parse "[]"]).entries = [("a", ⟨"3", false⟩)] := by decide +kernel

end Laws

end Settings

end TenantGate
