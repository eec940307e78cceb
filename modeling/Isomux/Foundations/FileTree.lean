import Isomux.Foundations.Rows

set_option autoImplicit false

/-!
# Trees of files with links

A tree says what lies at every real path: a file, a directory, a link or something else. A path is
walked from the top: a directory is entered, and a link is replaced by its target, as often as the
system follows links. Who takes files away from a tree changes no directory and no link, so paths of
directories lead to the same place as before.

## Main results

* `FileTree.realpath_concat` — a directory in a directory.
* `FileTree.Fewer.realpath` — fewer files do not move a directory.
-/

namespace FileTree

/-- What lies at a real path. A directory can be listed, or not. -/
inductive Node (σ κ : Type*) where
  | file (content : κ)
  | directory (listable : Bool)
  | link (target : List σ)
  | other

section

variable {σ κ : Type*} [DecidableEq σ]

/-- What lies at a real path of a tree. The top is a directory. -/
def node (t : List (List σ × Node σ κ)) (path : List σ) : Option (Node σ κ) :=
  if path = [] then some (.directory true) else (t.find? fun e => e.1 = path).map Prod.snd

/-- The real path of the rest of a path, from a directory on. A link is followed by `follow`. -/
def walk (follow : List σ → Option (List σ)) (t : List (List σ × Node σ κ)) :
    List σ → List σ → Option (List σ)
  | base, [] => some base
  | base, s :: rest =>
    match node t (base ++ [s]) with
    | some (.directory _) => walk follow t (base ++ [s]) rest
    | some (.link target) => follow (target ++ rest)
    | some _ => if rest = [] then some (base ++ [s]) else none
    | none => none

/-- The real path of a path on which so many links may be followed. -/
def realpath (t : List (List σ × Node σ κ)) : ℕ → List σ → Option (List σ)
  | 0, path => walk (fun _ => none) t [] path
  | links + 1, path => walk (realpath t links) t [] path

/-- What lies at a path, and its real path. The last segment is not followed. -/
def lstat (t : List (List σ × Node σ κ)) (links : ℕ) (path : List σ) :
    Option (List σ × Node σ κ) :=
  match path.getLast? with
  | none => some ([], .directory true)
  | some s => (realpath t links path.dropLast).bind fun base =>
    match node t base with
    | some (.directory _) => (node t (base ++ [s])).map fun n => (base ++ [s], n)
    | _ => none

/-- What lies in a directory, under its name. -/
def children (t : List (List σ × Node σ κ)) (base : List σ) : List (σ × Node σ κ) :=
  t.filterMap fun e => e.1.getLast?.bind fun s => if e.1.dropLast = base then some (s, e.2) else none

/-- What lies in the directory of a path, when it can be listed. -/
def readdir (t : List (List σ × Node σ κ)) (links : ℕ) (path : List σ) :
    Option (List (σ × Node σ κ)) :=
  (realpath t links path).bind fun base =>
    match node t base with
    | some (.directory true) => some (children t base)
    | _ => none

/-- The tree without what lies at a real path. -/
def unlink (t : List (List σ × Node σ κ)) (place : List σ) : List (List σ × Node σ κ) :=
  t.filter fun e => e.1 ≠ place

/-- One tree is the other without some of its files. -/
def Fewer (t t' : List (List σ × Node σ κ)) : Prop :=
  ∀ path, node t' path = node t path ∨
    node t' path = none ∧ ∃ content, node t path = some (.file content)

variable {t t' t'' : List (List σ × Node σ κ)} {path base : List σ} {s : σ} {links : ℕ}

variable {place : List σ} {n : Node σ κ}

lemma mem_children : (s, n) ∈ children t base ↔ (base ++ [s], n) ∈ t := by
  rw [children, List.mem_filterMap]
  constructor
  · rintro ⟨⟨p, m⟩, hmem, hp⟩
    obtain ⟨x, hx, hbase⟩ := Option.bind_eq_some_iff.1 hp
    split_ifs at hbase with hdir
    obtain ⟨rfl, rfl⟩ := Prod.mk.inj (Option.some.inj hbase)
    rw [← hdir, List.dropLast_append_getLast? _ hx]
    exact hmem
  · intro hmem
    exact ⟨_, hmem, by simp⟩

lemma node_of_mem (h : (t.map Prod.fst).Nodup) (hmem : (path, n) ∈ t)
    (hne : path ≠ []) : node t path = some n := by
  rw [node, if_neg hne, (Rows.find?_eq_some_iff h).2 ⟨hmem, rfl⟩]
  rfl

lemma mem_of_node (h : node t path = some n) (hne : path ≠ []) : (path, n) ∈ t := by
  rw [node, if_neg hne] at h
  obtain ⟨⟨p, m⟩, hfind, rfl⟩ := Option.map_eq_some_iff.1 h
  obtain rfl : p = path := by simpa using List.find?_some hfind
  exact List.mem_of_find?_eq_some hfind

lemma nodup_children (h : (t.map Prod.fst).Nodup) (base : List σ) :
    ((children t base).map Prod.fst).Nodup := by
  have hnames : (children t base).map Prod.fst = (t.map Prod.fst).filterMap fun p =>
      p.getLast?.bind fun s => if p.dropLast = base then some s else none := by
    rw [children, List.map_filterMap, List.filterMap_map]
    refine congrArg (fun f => t.filterMap f) (funext fun e => ?_)
    cases hlast : e.1.getLast? with
    | none => simp [hlast]
    | some s => by_cases hdir : e.1.dropLast = base <;> simp [hlast, hdir]
  have hplace : ∀ (p : List σ) (s : σ),
      s ∈ (p.getLast?.bind fun s => if p.dropLast = base then some s else none) → p = base ++ [s] := by
    intro p s hs
    obtain ⟨x, hx, hbase⟩ := Option.bind_eq_some_iff.1 hs
    split_ifs at hbase with hdir
    rw [← Option.some.inj hbase, ← hdir, List.dropLast_append_getLast? _ hx]
  rw [hnames]
  exact h.filterMap fun p p' s hs hs' => (hplace p s hs).trans (hplace p' s hs').symm

/-! ## Walks -/

/-- A walk to a directory goes on to a directory in it. -/
lemma walk_concat {follow : List σ → Option (List σ)} {b b' : Bool}
    (hfollow : ∀ p, follow p = some place → follow (p ++ [s]) = some (place ++ [s]))
    (hdir : node t place = some (.directory b)) (hsub : node t (place ++ [s]) = some (.directory b'))
    (h : walk follow t base path = some place) :
    walk follow t base (path ++ [s]) = some (place ++ [s]) := by
  induction path generalizing base with
  | nil =>
    obtain rfl := Option.some.inj h
    rw [List.nil_append, walk, hsub, walk]
  | cons x rest ih =>
    rw [walk] at h
    rw [List.cons_append, walk]
    cases hnode : node t (base ++ [x]) with
    | none =>
      rw [hnode] at h
      exact nomatch h
    | some n =>
      rw [hnode] at h
      cases n with
      | directory listable => exact ih h
      | link target =>
        dsimp only
        rw [← List.append_assoc]
        exact hfollow _ h
      | file content =>
        -- a file is no directory
        dsimp only at h
        split_ifs at h
        rw [Option.some.inj h, hdir] at hnode
        exact nomatch hnode
      | other =>
        dsimp only at h
        split_ifs at h
        rw [Option.some.inj h, hdir] at hnode
        exact nomatch hnode

/-- **A directory in a directory** lies at the longer real path. -/
theorem realpath_concat {b b' : Bool} (h : realpath t links path = some place)
    (hdir : node t place = some (.directory b)) (hsub : node t (place ++ [s]) = some (.directory b')) :
    realpath t links (path ++ [s]) = some (place ++ [s]) := by
  induction links generalizing path with
  | zero => exact walk_concat nofun hdir hsub h
  | succ links ih => exact walk_concat (fun _ hp => ih hp) hdir hsub h

lemma lstat_concat {b : Bool} (h : realpath t links path = some place)
    (hdir : node t place = some (.directory b)) :
    lstat t links (path ++ [s]) = (node t (place ++ [s])).map fun n => (place ++ [s], n) := by
  rw [lstat, List.getLast?_concat, List.dropLast_concat, h]
  dsimp only [Option.bind_some]
  rw [hdir]

lemma exists_of_lstat {p : List σ} (h : lstat t links (path ++ [s]) = some (p, n)) :
    ∃ place b, realpath t links path = some place ∧ node t place = some (.directory b) ∧
      p = place ++ [s] ∧ node t p = some n := by
  rw [lstat, List.getLast?_concat, List.dropLast_concat] at h
  obtain ⟨place, hplace, hnode⟩ := Option.bind_eq_some_iff.1 h
  split at hnode
  · rename_i b hdir
    obtain ⟨m, hm, heq⟩ := Option.map_eq_some_iff.1 hnode
    obtain ⟨rfl, rfl⟩ := Prod.mk.inj heq
    exact ⟨place, b, hplace, hdir, rfl, hm⟩
  · exact nomatch hnode

lemma exists_of_readdir {entries : List (σ × Node σ κ)} (h : readdir t links path = some entries) :
    ∃ place, realpath t links path = some place ∧ node t place = some (.directory true) ∧
      entries = children t place := by
  obtain ⟨place, hplace, hnode⟩ := Option.bind_eq_some_iff.1 h
  split at hnode
  · rename_i hdir
    exact ⟨place, hplace, hdir, (Option.some.inj hnode).symm⟩
  · exact nomatch hnode

/-! ## Fewer files -/

lemma Fewer.refl (t : List (List σ × Node σ κ)) : Fewer t t := fun _ => Or.inl rfl

lemma Fewer.trans (h : Fewer t t') (h' : Fewer t' t'') : Fewer t t'' := by
  intro path
  rcases h' path with hsame | ⟨hnone, content, hfile⟩
  · rw [hsame]
    exact h path
  · rcases h path with hsame | ⟨hgone, -⟩
    · exact Or.inr ⟨hnone, content, hsame ▸ hfile⟩
    · exact nomatch hgone.symm.trans hfile

lemma node_unlink (hne : place ≠ []) :
    node (unlink t place) path = if path = place then none else node t path := by
  unfold node unlink
  split_ifs with hnil hplace
  · exact absurd (hplace ▸ hnil) hne
  · rfl
  · rename_i hplace
    subst hplace
    rw [List.find?_eq_none.2 fun e he => by simpa using (List.mem_filter.1 he).2]
    rfl
  · rename_i hplace
    rw [List.find?_filter]
    refine congrArg (Option.map Prod.snd) (congrArg (fun p => t.find? p) (funext fun e => ?_))
    by_cases he : e.1 = path
    · simp [he, hplace]
    · simp [he]

lemma fewer_unlink {content : κ} (hne : place ≠ [])
    (h : node t place = some (.file content)) : Fewer t (unlink t place) := by
  intro path
  rw [node_unlink hne]
  split_ifs with hpath
  · exact Or.inr ⟨rfl, content, hpath ▸ h⟩
  · exact Or.inl rfl

/-- Fewer files do not move a walk to a directory. -/
lemma Fewer.walk {follow follow' : List σ → Option (List σ)} {b : Bool}
    (h : Fewer t t') (hfollow : ∀ p, follow p = some place → follow' p = some place)
    (hdir : node t place = some (.directory b)) (hwalk : walk follow t base path = some place) :
    FileTree.walk follow' t' base path = some place := by
  induction path generalizing base with
  | nil => exact hwalk
  | cons x rest ih =>
    rw [FileTree.walk] at hwalk ⊢
    have hnode := h (base ++ [x])
    cases hold : node t (base ++ [x]) with
    | none =>
      rw [hold] at hwalk
      exact nomatch hwalk
    | some n =>
      rw [hold] at hwalk hnode
      cases n with
      | directory listable =>
        rw [hnode.resolve_right fun hfile => nomatch hfile.2.choose_spec]
        exact ih hwalk
      | link target =>
        rw [hnode.resolve_right fun hfile => nomatch hfile.2.choose_spec]
        exact hfollow _ hwalk
      | file content | other =>
        dsimp only at hwalk
        split_ifs at hwalk
        rw [Option.some.inj hwalk, hdir] at hold
        exact nomatch hold

/-- **Fewer files do not move a directory.** -/
theorem Fewer.realpath {b : Bool} (h : Fewer t t')
    (hplace : realpath t links path = some place) (hdir : node t place = some (.directory b)) :
    FileTree.realpath t' links path = some place := by
  induction links generalizing path with
  | zero =>
    have hnone : ∀ p : List σ, (none : Option (List σ)) = some place → none = some place :=
      fun _ hp => hp
    exact h.walk hnone hdir hplace
  | succ links ih => exact h.walk (fun _ hp => ih hp) hdir hplace

lemma Fewer.node {b : Bool} (h : Fewer t t') (hdir : node t path = some (.directory b)) :
    FileTree.node t' path = some (.directory b) := by
  rcases h path with hsame | ⟨-, content, hfile⟩
  · rw [hsame, hdir]
  · exact nomatch hdir.symm.trans hfile

end

end FileTree
