/-
# The last writes of a store

A document's PLACE is its container, its id and its partition.  A store is described by the log of
what was written to it since it was last cleared: of each place it holds the last write, in the
order of these writes (`Store.Follows`).

* `latest` is that list, as a function of the log alone.  A write takes the document of its place
  out and comes last, which is how `latest` grows (`latest_concat`), and a refused insertion
  writes nothing.  So `Store.Follows` is kept by every use, and by induction holds after any run.
* What the log says of a place can then be read off the store: by its listing, in which no two
  documents have one place (`Store.pairwise_container`), as well as by a lookup in a partition
  (`Store.read_in_partition`).

`Store.holds_last_writes` takes this together for all runs of insertions and clearings.  What is
written under an id is what was inserted, with the key read from its own members
(`Store.stored_eq_ok`).  A lookup across all partitions reads no place, since several may have the
id; it is treated in `Proofs/OwnLookups.lean`.
-/
import DocQuery.Store
import DocQuery.Proofs.Outcome
import Mathlib.Data.List.Find

namespace DocQuery

namespace StoredDocument

variable {a b d : StoredDocument} {container id : String} {partition : Option String}

/-- Whether a document is at this place. -/
def isAt (d : StoredDocument) (container id : String) (partition : Option String) : Bool :=
  d.container == container && d.id == id && d.partition == partition

theorem isAt_iff : d.isAt container id partition = true ↔
    d.container = container ∧ d.id = id ∧ d.partition = partition := by
  simp only [isAt, Bool.and_eq_true, beq_iff_eq, and_assoc]

theorem samePlace_iff : a.samePlace b = true ↔
    a.container = b.container ∧ a.id = b.id ∧ a.partition = b.partition := isAt_iff

theorem samePlace_of_isAt (ha : a.isAt container id partition = true)
    (hb : b.isAt container id partition = true) : a.samePlace b = true := by
  obtain ⟨hc, hi, hp⟩ := isAt_iff.1 ha
  obtain ⟨hc', hi', hp'⟩ := isAt_iff.1 hb
  exact samePlace_iff.2 ⟨hc.trans hc'.symm, hi.trans hi'.symm, hp.trans hp'.symm⟩

theorem isAt_of_samePlace (h : a.samePlace b = true) (ha : a.isAt container id partition = true) :
    b.isAt container id partition = true := by
  obtain ⟨hc, hi, hp⟩ := samePlace_iff.1 h
  obtain ⟨hc', hi', hp'⟩ := isAt_iff.1 ha
  exact isAt_iff.2 ⟨hc.symm.trans hc', hi.symm.trans hi', hp.symm.trans hp'⟩

/-! ## 1. The last write of each place -/

/-- Of each place the last write, in the order of these writes. -/
def latest : List StoredDocument → List StoredDocument
  | [] => []
  | d :: later => if later.any d.samePlace then latest later else d :: latest later

theorem latest_sublist : ∀ log : List StoredDocument, (latest log).Sublist log
  | [] => .slnil
  | d :: later => by
    rw [latest]
    split
    · exact (latest_sublist later).cons d
    · exact (latest_sublist later).cons_cons d

/-- A write takes the earlier one of its place out and comes last. -/
theorem latest_concat (d : StoredDocument) : ∀ log : List StoredDocument,
    latest (log ++ [d]) = (latest log).filter (fun e => !e.samePlace d) ++ [d]
  | [] => rfl
  | e :: later => by
    have ih := latest_concat d later
    rw [List.cons_append, latest, latest, ih, List.any_append, List.any_cons, List.any_nil,
      Bool.or_false]
    cases rewritten : later.any e.samePlace with
    | true => rfl
    | false => cases same : e.samePlace d <;> simp [same]

theorem pairwise_latest : ∀ log : List StoredDocument,
    (latest log).Pairwise fun a b => a.samePlace b = false
  | [] => .nil
  | d :: later => by
    rw [latest]
    split
    · exact pairwise_latest later
    · next last =>
      refine List.pairwise_cons.2 ⟨?_, pairwise_latest later⟩
      intro e he
      exact Bool.eq_false_iff.2 fun same =>
        last (List.any_eq_true.2 ⟨e, (latest_sublist later).subset he, same⟩)

/-- At one place the last write is found. -/
theorem find?_latest (container id : String) (partition : Option String) :
    ∀ log : List StoredDocument, (latest log).find? (·.isAt container id partition) =
      (log.filter (·.isAt container id partition)).getLast?
  | [] => rfl
  | d :: later => by
    have ih := find?_latest container id partition later
    rw [latest, List.filter_cons]
    cases here : d.isAt container id partition with
    | false => split <;> simp [here, ih]
    | true =>
      rw [if_pos rfl]
      by_cases rewritten : later.any d.samePlace = true
      · obtain ⟨e, he, same⟩ := List.any_eq_true.1 rewritten
        have more : later.filter (·.isAt container id partition) ≠ [] :=
          List.ne_nil_of_mem (List.mem_filter.2 ⟨he, isAt_of_samePlace same here⟩)
        rw [if_pos rewritten, ih, List.getLast?_cons_of_ne_nil more]
      · have none : later.filter (·.isAt container id partition) = [] := by
          refine List.filter_eq_nil_iff.2 fun e he hat => ?_
          exact rewritten (List.any_eq_true.2 ⟨e, he, samePlace_of_isAt here hat⟩)
        rw [if_neg rewritten, none, List.find?_cons, here]
        rfl

/-- What is said of places can be said of the log before or after. -/
theorem filter_latest {keep : StoredDocument → Bool}
    (ofPlace : ∀ a b, a.samePlace b = true → keep a = keep b) : ∀ log : List StoredDocument,
    (latest log).filter keep = latest (log.filter keep)
  | [] => rfl
  | d :: later => by
    have ih := filter_latest ofPlace later
    rw [latest, List.filter_cons]
    cases kept : keep d with
    | false => split <;> simp [kept, ih]
    | true =>
      have same : (later.filter keep).any d.samePlace = later.any d.samePlace := by
        rw [List.any_filter, Bool.eq_iff_iff, List.any_eq_true, List.any_eq_true]
        refine exists_congr fun e => and_congr_right fun _ => ?_
        rw [Bool.and_eq_true]
        refine ⟨And.right, fun same => ⟨?_, same⟩⟩
        exact (ofPlace d e same).symm.trans kept
      rw [if_pos rfl, latest, same]
      split <;> simp [kept, ih]

end StoredDocument

namespace Store

/-! ## 2. Runs of writes -/

/-- What is done to a store. -/
inductive Use where
  | insert (t : EntityType) (document : Json)
  | clear

/-- The store after a use; a refused insertion leaves it as it was. -/
def after (s : Store) : Use → Store
  | .insert t document => match s.insert t document with
    | .ok (_, s') => s'
    | .error _ => s
  | .clear => .empty

/-- The log of writes after a use; a refused insertion writes nothing. -/
def Use.log (log : List StoredDocument) : Use → List StoredDocument
  | .insert t document => log ++ (stored t document).toOption.toList
  | .clear => []

/-- The store that uses lead to, from the empty one. -/
def perform (uses : List Use) : Store := uses.foldl after .empty

/-- What uses have written since they last cleared the store, in the order of the writes. -/
def written (uses : List Use) : List StoredDocument := uses.foldl Use.log []

/-- What is stored of an accepted document: the text of its key, its partition and itself. -/
theorem stored_eq_ok {t : EntityType} {document : Json} {d : StoredDocument} :
    stored t document = .ok d ↔ (∃ members, document = .object members) ∧
      ∃ key, t.keyValues document = .ok key ∧ documentId key = .ok d.id ∧
        t.partition document = .ok d.partition ∧ d.container = t.container ∧ d.body = document := by
  unfold stored
  split
  · next members =>
    simp only [bind_eq_ok, pure_eq_ok]
    constructor
    · rintro ⟨key, hkey, id, hid, partition, hpartition, rfl⟩
      exact ⟨⟨members, rfl⟩, key, hkey, hid, hpartition, rfl, rfl⟩
    · rintro ⟨-, key, hkey, hid, hpartition, container, body⟩
      refine ⟨key, hkey, d.id, hid, d.partition, hpartition, ?_⟩
      rw [← container, ← body]
  · next other =>
    constructor
    · intro h
      cases h
    · rintro ⟨⟨members, rfl⟩, -⟩
      exact absurd rfl (other members)

theorem insert_eq_ok {s s' : Store} {t : EntityType} {document : Json} {id : String} :
    s.insert t document = .ok (id, s') ↔
      ∃ d, stored t document = .ok d ∧ d.id = id ∧ s.put d = s' := by
  simp only [insert, bind_eq_ok, pure_eq_ok, Prod.mk.injEq]

theorem insert_eq_error {s : Store} {t : EntityType} {document : Json} {e : RunError} :
    s.insert t document = .error e ↔ stored t document = .error e := by
  unfold insert
  cases stored t document with
  | error e' =>
    constructor
    · rintro ⟨⟩
      rfl
    · rintro ⟨⟩
      rfl
  | ok d => exact ⟨nofun, nofun⟩

/-- What is written was inserted. -/
theorem mem_written : ∀ (uses : List Use) {log : List StoredDocument} {d : StoredDocument},
    d ∈ uses.foldl Use.log log → d ∈ log ∨ ∃ t document, Use.insert t document ∈ uses ∧
      stored t document = .ok d
  | [], _, _, h => .inl h
  | use :: rest, log, d, h => by
    rcases mem_written rest h with h | ⟨t, document, inserted, hd⟩
    · cases use with
      | clear => exact absurd h List.not_mem_nil
      | insert t document =>
        rcases List.mem_append.1 h with h | h
        · exact .inl h
        · refine .inr ⟨t, document, List.mem_cons_self, ?_⟩
          cases hd : stored t document with
          | error e =>
            rw [hd] at h
            exact absurd h List.not_mem_nil
          | ok d' =>
            rw [hd] at h
            rw [List.mem_singleton.1 h]
    · exact .inr ⟨t, document, List.mem_cons_of_mem _ inserted, hd⟩

/-- The store holds the last writes of a log. -/
def Follows (s : Store) (log : List StoredDocument) : Prop :=
  s.documents = StoredDocument.latest log

variable {s : Store} {log : List StoredDocument}

theorem Follows.after (h : s.Follows log) (use : Use) : (s.after use).Follows (use.log log) := by
  cases use with
  | clear => rfl
  | insert t document =>
    cases hd : stored t document with
    | error e =>
      simp only [Store.after, insert_eq_error.2 hd, Use.log, hd]
      show s.documents = StoredDocument.latest (log ++ [])
      rw [List.append_nil]
      exact h
    | ok d =>
      have inserted : s.insert t document = .ok (d.id, s.put d) := insert_eq_ok.2 ⟨d, hd, rfl, rfl⟩
      simp only [Store.after, inserted, Use.log, hd]
      show s.documents.filter (fun e => !e.samePlace d) ++ [d] = StoredDocument.latest (log ++ [d])
      rw [StoredDocument.latest_concat, h]

theorem Follows.perform : ∀ {uses : List Use} {s : Store} {log : List StoredDocument},
    s.Follows log → (uses.foldl Store.after s).Follows (uses.foldl Use.log log)
  | [], _, _, h => h
  | use :: _, _, _, h => (h.after use).perform

theorem follows_perform (uses : List Use) : (perform uses).Follows (written uses) := by
  have start : empty.Follows [] := rfl
  exact start.perform

theorem container_of_follows (h : s.Follows log) (name : String) :
    s.container name = StoredDocument.latest (log.filter (·.container == name)) := by
  rw [container, h]
  refine StoredDocument.filter_latest (fun a b same => ?_) log
  rw [(StoredDocument.samePlace_iff.1 same).1]

/-- A document of a container is found by its place. -/
theorem find?_container (h : s.Follows log) (name id : String) (partition : Option String) :
    (s.container name).find? (·.isAt name id partition) =
      (log.filter (·.isAt name id partition)).getLast? := by
  rw [container_of_follows h, StoredDocument.find?_latest, List.filter_filter]
  refine congrArg List.getLast? (List.filter_congr fun d _ => ?_)
  cases here : d.isAt name id partition with
  | false => rw [Bool.false_and]
  | true => rw [Bool.true_and, (StoredDocument.isAt_iff.1 here).1, beq_self_eq_true]

theorem container_eq_of_mem {name : String} {d : StoredDocument} (h : d ∈ s.container name) :
    d.container = name := beq_iff_eq.1 (List.mem_filter.1 h).2

/-- No two documents of a container have one place. -/
theorem pairwise_container (h : s.Follows log) (name : String) :
    (s.container name).Pairwise fun a b => ¬(a.id = b.id ∧ a.partition = b.partition) := by
  have apart := StoredDocument.pairwise_latest (log.filter (·.container == name))
  rw [← container_of_follows h] at apart
  refine apart.imp_of_mem fun {a b} ha hb different same => ?_
  have together : a.samePlace b = true := StoredDocument.samePlace_iff.2
    ⟨(container_eq_of_mem ha).trans (container_eq_of_mem hb).symm, same⟩
  exact Bool.false_ne_true (different.symm.trans together)

/-- A lookup in a partition reads the document of a place. -/
theorem read_in_partition (s : Store) (name id partition : String) :
    s.read ⟨name, some partition, id⟩ =
      ((s.container name).find? (·.isAt name id (some partition))).map (.document ·.body) := by
  refine congrArg (Option.map _) (List.find?_congr fun d hd => ?_)
  simp only [StoredDocument.isAt, container_eq_of_mem hd, beq_self_eq_true, Bool.true_and,
    StoredDocument.inPartition, Option.isNone_some, Bool.false_or]

/-! ## 3. What a store holds -/

/-- **A store holds the last write of each place.**  No two documents of a container have one id and
one partition; under an id and a partition stands what was written there last, if anything was; the
documents are listed in the order of these writes.  An insertion writes the document under the id
that it returns, and a refused one changes nothing.  A lookup in a partition gives the document of
that place or nothing. -/
theorem holds_last_writes (uses : List Use) :
    (∀ name, ((perform uses).container name).Pairwise fun a b =>
      ¬(a.id = b.id ∧ a.partition = b.partition)) ∧
    (∀ name id partition, ((perform uses).container name).find? (·.isAt name id partition) =
      ((written uses).filter (·.isAt name id partition)).getLast?) ∧
    (∀ d ∈ written uses, ∃ e ∈ (perform uses).container d.container,
      e.isAt d.container d.id d.partition = true) ∧
    (∀ name, (perform uses).container name =
      StoredDocument.latest ((written uses).filter (·.container == name))) ∧
    (∀ t document id s', (perform uses).insert t document = .ok (id, s') →
      perform (uses ++ [.insert t document]) = s' ∧
      ∃ d, written (uses ++ [.insert t document]) = written uses ++ [d] ∧
        d.container = t.container ∧ d.id = id ∧ t.partition document = .ok d.partition ∧
        d.body = document) ∧
    (∀ t document e, (perform uses).insert t document = .error e →
      perform (uses ++ [.insert t document]) = perform uses ∧
      written (uses ++ [.insert t document]) = written uses) ∧
    ∀ name id partition, (perform uses).read ⟨name, some partition, id⟩ =
      (((written uses).filter (·.isAt name id (some partition))).getLast?).map
        (.document ·.body) := by
  have follows := follows_perform uses
  refine ⟨pairwise_container follows, find?_container follows, ?_, container_of_follows follows,
    ?_, ?_, ?_⟩
  · intro d hd
    have own : d ∈ (written uses).filter (·.isAt d.container d.id d.partition) :=
      List.mem_filter.2 ⟨hd, StoredDocument.isAt_iff.2 ⟨rfl, rfl, rfl⟩⟩
    obtain ⟨e, he⟩ := Option.isSome_iff_exists.1
      (List.getLast?_isSome.2 (List.ne_nil_of_mem own))
    have found := (find?_container follows d.container d.id d.partition).trans he
    have there := List.find?_some found
    exact ⟨e, List.mem_of_find?_eq_some found, there⟩
  · intro t document id s' inserted
    obtain ⟨d, hd, hid, -⟩ := insert_eq_ok.1 inserted
    obtain ⟨-, -, -, -, partition, container, body⟩ := stored_eq_ok.1 hd
    have grown : written (uses ++ [.insert t document]) = written uses ++ [d] := by
      simp only [written, List.foldl_append, List.foldl_cons, List.foldl_nil, Use.log, hd]
      rfl
    refine ⟨?_, d, grown, container, hid, partition, body⟩
    simp only [perform, List.foldl_append, List.foldl_cons, List.foldl_nil] at inserted ⊢
    simp only [Store.after, inserted]
  · intro t document e refused
    have nothing : written (uses ++ [.insert t document]) = written uses := by
      simp only [written, List.foldl_append, List.foldl_cons, List.foldl_nil, Use.log,
        insert_eq_error.1 refused]
      exact List.append_nil _
    refine ⟨?_, nothing⟩
    simp only [perform, List.foldl_append, List.foldl_cons, List.foldl_nil] at refused ⊢
    simp only [Store.after, refused]
  · intro name id partition
    rw [read_in_partition, find?_container follows]

end Store

end DocQuery
