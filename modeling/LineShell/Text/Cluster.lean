import LineShell.Text.ClusterClass

/-!
# Clusters

A cluster is a longest piece of a text that a reader takes for one character.  Two neighbours
belong to one cluster by the rules of the Unicode Standard Annex 29, as `joins` gives them: it
looks at the classes of the cluster so far, the nearest first, and at the class of the character
that comes next.

`flatten_clusters` says that nothing is lost, and `clusters_append_control` that a control is a
cluster of its own wherever it stands, which splits the text around it.
-/

namespace LineShell

namespace ClusterClass

/-- Classes that stand alone whatever is next to them. -/
def standsAlone : ClusterClass → Bool
  | control | carriageReturn | lineFeed => true
  | _ => false

/-- Marks that are written on the character before them.  A linker is one of them. -/
def isExtending : ClusterClass → Bool
  | extend | linker | nonJoiner => true
  | _ => false

/-- Marks that belong to the character before them, whatever that is. -/
def isMark : ClusterClass → Bool
  | joiner | spacingMark => true
  | c => c.isExtending

/-- Marks that may stand between the consonants of a conjunct. -/
def isConjunctMark : ClusterClass → Bool
  | extend | linker | joiner => true
  | _ => false

/-- Whether two neighbours are parts of one Hangul syllable. -/
def inOneSyllable : ClusterClass → ClusterClass → Bool
  | leading, leading | leading, vowel | leading, openSyllable | leading, closedSyllable => true
  | openSyllable, vowel | openSyllable, trailing | vowel, vowel | vowel, trailing => true
  | closedSyllable, trailing | trailing, trailing => true
  | _, _ => false

/-- Whether a cluster ends in a consonant with marks of which one is a linker. -/
def endsInConjunct (before : List ClusterClass) : Bool :=
  (before.takeWhile isConjunctMark).contains linker &&
    (before.dropWhile isConjunctMark).head? == some consonant

/-- Whether a cluster ends in a pictograph that a joiner holds open. -/
def endsInOpenPictograph : List ClusterClass → Bool
  | joiner :: before => (before.dropWhile isExtending).head? == some pictograph
  | _ => false

/-- Whether a cluster ends in the first half of a flag. -/
def endsInHalfFlag (before : List ClusterClass) : Bool :=
  (before.takeWhile (· == regional)).length % 2 == 1

/-- Whether a character of the class `next` goes on with a cluster, whose classes are given
backwards. -/
def joins (before : List ClusterClass) (next : ClusterClass) : Bool :=
  match before with
  | [] => false
  | last :: _ =>
    if last = carriageReturn ∧ next = lineFeed then true
    else if last.standsAlone || next.standsAlone then false
    else
      next.isMark || last == prepend || inOneSyllable last next ||
        (next == consonant && endsInConjunct before) ||
        (next == pictograph && endsInOpenPictograph before) ||
        (next == regional && endsInHalfFlag before)

theorem joins_control (before : List ClusterClass) : joins before control = false := by
  cases before <;> simp [joins, standsAlone]

theorem control_joins (before : List ClusterClass) (next : ClusterClass) :
    joins (control :: before) next = false := by
  simp [joins, standsAlone]

end ClusterClass

namespace Text

/-- The clusters of a text that goes on with an unfinished one, given backwards with its
classes. -/
def clustersFrom (current : Text) (classes : List ClusterClass) : Text → List Text
  | [] => [current.reverse]
  | c :: rest =>
    let next := ClusterClass.of c
    if ClusterClass.joins classes next then clustersFrom (c :: current) (next :: classes) rest
    else current.reverse :: clustersFrom [c] [next] rest

/-- The clusters of a text. -/
def clusters : Text → List Text
  | [] => []
  | c :: rest => clustersFrom [c] [ClusterClass.of c] rest

theorem flatten_clustersFrom (current : Text) (classes : List ClusterClass) (text : Text) :
    (clustersFrom current classes text).flatten = current.reverse ++ text := by
  fun_induction clustersFrom current classes text with
  | case1 => simp
  | case2 current classes c rest next h ih => simp [ih]
  | case3 current classes c rest next h ih => simp [ih]

/-- The clusters of a text are all of it, in order. -/
theorem flatten_clusters (text : Text) : (clusters text).flatten = text := by
  cases text with
  | nil => rfl
  | cons c rest => simp [clusters, flatten_clustersFrom]

theorem clustersFrom_control (current : Text) (classes : List ClusterClass) (c : Char) (text : Text) :
    clustersFrom current (.control :: classes) (c :: text) =
      current.reverse :: clusters (c :: text) := by
  simp [clustersFrom, clusters, ClusterClass.control_joins]

theorem clustersFrom_append_control {c : Char} (h : ClusterClass.of c = .control) (current : Text)
    (classes : List ClusterClass) (front back : Text) :
    clustersFrom current classes (front ++ c :: back) =
      clustersFrom current classes front ++ clusters (c :: back) := by
  fun_induction clustersFrom current classes front with
  | case1 => simp [clustersFrom, clusters, h, ClusterClass.joins_control]
  | case2 current classes d rest next hjoins ih =>
    rw [List.cons_append, clustersFrom, if_pos hjoins, ih]
  | case3 current classes d rest next hjoins ih =>
    rw [List.cons_append, clustersFrom, if_neg hjoins, ih, List.cons_append]

/-- A control is a cluster of its own and splits the text around it. -/
theorem clusters_append_control {c : Char} (h : ClusterClass.of c = .control) (front back : Text) :
    clusters (front ++ c :: back) = clusters front ++ [c] :: clusters back := by
  have hc : clusters (c :: back) = [c] :: clusters back := by
    cases back with
    | nil => simp [clusters, clustersFrom]
    | cons d back =>
      rw [clusters, h, clustersFrom_control]
      rfl
  cases front with
  | nil => exact hc
  | cons d front => rw [List.cons_append, clusters, clustersFrom_append_control h, hc, clusters]

end Text

end LineShell
