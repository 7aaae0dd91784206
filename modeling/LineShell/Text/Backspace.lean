import LineShell.Text.Cluster

/-!
# Backspaces

A line that is typed may contain backspaces.  Each takes back the cluster before it that is still
there; at the beginning of the line it does nothing.  No backspace is left in the line.

A draft keeps the size of each cluster in a single byte.  So of a cluster of 256 bytes or more a
backspace takes back only as many bytes as the size modulo 256 says, and where that many end
inside a character there is no line.  `edited?_eq` states that smaller clusters go whole.
-/

namespace LineShell

/-- The character that takes back what stands before it. -/
def backspace : Char := '\x08'

/-- The size of a text in bytes. -/
def Text.size : Text → Nat
  | [] => 0
  | c :: text => c.utf8Size + Text.size text

structure Draft where
  /-- What is kept of the line, the last character first. -/
  kept : Text := []
  /-- The sizes of the clusters that are kept, the last one first. -/
  sizes : List UInt8 := []
  deriving DecidableEq, Repr

namespace Draft

/-- Takes characters off the front that make up a number of bytes, if whole characters do. -/
def dropBytes? : (count : Nat) → Text → Option Text
  | 0, text => some text
  | _ + 1, [] => none
  | count + 1, c :: text =>
    if c.utf8Size ≤ count + 1 then dropBytes? (count + 1 - c.utf8Size) text else none

/-- Adds a cluster at the end. -/
def add (draft : Draft) (cluster : Text) : Draft :=
  { kept := cluster.reverse ++ draft.kept, sizes := UInt8.ofNat cluster.size :: draft.sizes }

/-- Takes the last cluster back. -/
def erase? (draft : Draft) : Option Draft :=
  match draft.sizes with
  | [] => some draft
  | size :: sizes => (dropBytes? size.toNat draft.kept).map ({ kept := ·, sizes })

/-- Reads a cluster of the line as it was typed. -/
def read? (draft : Draft) (cluster : Text) : Option Draft :=
  if cluster = [backspace] then draft.erase? else some (draft.add cluster)

theorem dropBytes?_append (front back : Text) :
    dropBytes? front.size (front ++ back) = some back := by
  induction front with
  | nil => simp [Text.size, dropBytes?]
  | cons c front ih =>
    have hsize : Text.size (c :: front) = c.utf8Size + Text.size front := rfl
    obtain ⟨n, hn⟩ : ∃ n, Text.size (c :: front) = n + 1 :=
      ⟨_, (Nat.succ_pred (by have := c.utf8Size_pos; omega)).symm⟩
    rw [hn, List.cons_append, dropBytes?, if_pos (by omega),
      show n + 1 - c.utf8Size = Text.size front by omega, ih]

theorem size_append (front back : Text) : Text.size (front ++ back) = front.size + back.size := by
  induction front with
  | nil => simp [Text.size]
  | cons c front ih =>
    rw [List.cons_append, Text.size, ih, Text.size, Nat.add_assoc]

theorem size_reverse (text : Text) : Text.size text.reverse = text.size := by
  induction text with
  | nil => rfl
  | cons c text ih =>
    have hlast : Text.size [c] = c.utf8Size := rfl
    rw [List.reverse_cons, size_append, ih, hlast, Text.size, Nat.add_comm]

/-- A backspace takes back the cluster before it. -/
theorem erase?_add (draft : Draft) {cluster : Text} (h : cluster.size < 256) :
    (draft.add cluster).erase? = some draft := by
  have hsize : (UInt8.ofNat cluster.size).toNat = Text.size cluster.reverse := by
    rw [size_reverse]
    exact Nat.mod_eq_of_lt h
  simp [add, erase?, hsize, dropBytes?_append]

/-- The draft that keeps the given clusters, the last one first. -/
def holding : List Text → Draft
  | [] => {}
  | cluster :: kept => (holding kept).add cluster

theorem kept_holding (kept : List Text) : (holding kept).kept = kept.reverse.flatten.reverse := by
  induction kept with
  | nil => rfl
  | cons cluster kept ih => simp [holding, add, ih]

end Draft

/-- The clusters that are kept, the last one first, when one more is typed. -/
def typeCluster (kept : List Text) (cluster : Text) : List Text :=
  if cluster = [backspace] then kept.tail else cluster :: kept

namespace Draft

/-- What a draft does with a cluster, where the sizes of all that it holds fit in a byte. -/
theorem read?_holding {kept : List Text} (h : ∀ cluster ∈ kept, cluster.size < 256)
    (cluster : Text) : (holding kept).read? cluster = some (holding (typeCluster kept cluster)) := by
  unfold read? typeCluster
  split
  · cases kept with
    | nil => rfl
    | cons last kept => exact erase?_add _ (h last List.mem_cons_self)
  · rfl

theorem foldlM_read?_holding {kept clusters : List Text} (hkept : ∀ cluster ∈ kept, cluster.size < 256)
    (hclusters : ∀ cluster ∈ clusters, cluster.size < 256) :
    clusters.foldlM read? (holding kept) = some (holding (clusters.foldl typeCluster kept)) := by
  induction clusters generalizing kept with
  | nil => rfl
  | cons cluster clusters ih =>
    obtain ⟨hcluster, hclusters⟩ := List.forall_mem_cons.1 hclusters
    have hnext : ∀ c ∈ typeCluster kept cluster, Text.size c < 256 := by
      unfold typeCluster
      split
      · exact fun c hc => hkept c (List.mem_of_mem_tail hc)
      · exact List.forall_mem_cons.2 ⟨hcluster, hkept⟩
    rw [List.foldlM_cons, read?_holding hkept]
    exact ih hnext hclusters

end Draft

theorem foldl_typeCluster_of_not_mem {kept clusters : List Text} (h : [backspace] ∉ clusters) :
    clusters.foldl typeCluster kept = clusters.reverse ++ kept := by
  induction clusters generalizing kept with
  | nil => rfl
  | cons cluster clusters ih =>
    have hne : cluster ≠ [backspace] := fun e => h (e ▸ List.mem_cons_self)
    rw [List.foldl_cons, typeCluster, if_neg hne, ih fun m => h (List.mem_cons_of_mem _ m)]
    simp

theorem foldl_typeCluster_replicate (kept : List Text) (n : Nat) :
    (List.replicate n [backspace]).foldl typeCluster kept = kept.drop n := by
  induction n generalizing kept with
  | zero => rfl
  | succ n ih => rw [List.replicate_succ, List.foldl_cons, ih, typeCluster, if_pos rfl, List.drop_tail]

namespace Text

/-- The line that is meant by a line as it was typed, if its backspaces leave one. -/
def edited? (line : Text) : Option Text :=
  if line.contains backspace then
    (line.clusters.foldlM Draft.read? {}).map (·.kept.reverse)
  else some line

theorem backspace_not_mem_clusters {line : Text} (h : backspace ∉ line) :
    [backspace] ∉ line.clusters := fun m => h <| by
  rw [← flatten_clusters line]
  exact List.mem_flatten_of_mem m List.mem_cons_self

/-- Where no cluster is too long, a line means the clusters that its backspaces leave, each of them
whole. -/
theorem edited?_eq {line : Text} (h : ∀ cluster ∈ line.clusters, cluster.size < 256) :
    line.edited? = some (line.clusters.foldl typeCluster []).reverse.flatten := by
  unfold edited?
  split
  · have hread : line.clusters.foldlM Draft.read? {} =
        some (Draft.holding (line.clusters.foldl typeCluster [])) :=
      Draft.foldlM_read?_holding (List.forall_mem_nil _) h
    simp [hread, Draft.kept_holding]
  · next hcontains =>
    -- Without backspaces there is nothing to take back, and the clusters are the line.
    have hmem : backspace ∉ line := by simpa using hcontains
    simp [foldl_typeCluster_of_not_mem (backspace_not_mem_clusters hmem), flatten_clusters]

theorem clusters_append_backspaces (line : Text) (n : Nat) :
    clusters (line ++ List.replicate n backspace) = line.clusters ++ List.replicate n [backspace] := by
  have hcontrol : ClusterClass.of backspace = .control := by decide
  induction n generalizing line with
  | zero => simp
  | succ n ih =>
    have hback := ih []
    rw [List.nil_append, show clusters [] = [] from rfl, List.nil_append] at hback
    rw [List.replicate_succ, clusters_append_control hcontrol, hback, List.replicate_succ]

/-- At the end of a line without others, each backspace takes back one cluster of what is left of
it, and more of them than it has clusters leave nothing. -/
theorem edited?_append_backspaces {line : Text} (hmem : backspace ∉ line)
    (h : ∀ cluster ∈ line.clusters, cluster.size < 256) (n : Nat) :
    edited? (line ++ List.replicate n backspace) =
      some (line.clusters.take (line.clusters.length - n)).flatten := by
  have hsizes : ∀ cluster ∈ clusters (line ++ List.replicate n backspace), cluster.size < 256 := by
    rw [clusters_append_backspaces]
    intro cluster hcluster
    rcases List.mem_append.1 hcluster with hcluster | hcluster
    · exact h cluster hcluster
    · rw [List.eq_of_mem_replicate hcluster]
      decide
  rw [edited?_eq hsizes, clusters_append_backspaces, List.foldl_append,
    foldl_typeCluster_of_not_mem (backspace_not_mem_clusters hmem), foldl_typeCluster_replicate]
  simp [List.drop_reverse]

/-- A letter goes together with its accent. -/
example : edited? "ae\u0301\x08".toList = some ['a'] := by decide +kernel

end Text

end LineShell
