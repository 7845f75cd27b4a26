import Mathlib.Data.List.Sort
import Terminay.Workspace.State

/-!
# The worktrees that get a folder

General stands for the deepest existing checkout that holds the project root.
Every other worktree that has a working tree gets a folder of its own, named
after its directory. Paths are POSIX paths.
-/

namespace Terminay.Folders
open Script Workspace

structure ListedWorktree where
  id : Option Str
  repositoryId : Str
  path : Str
  branch : Option Str
  isBare : Bool
  isPrunable : Bool
  deriving DecidableEq

structure ReconcilerWorktreeListing where
  state : Str
  worktrees : List ListedWorktree
  deriving DecidableEq

def sep : Str := js "/"

def basename (path : Str) : Str :=
  ((path.reverse.dropWhile (sep.contains ·)).takeWhile fun u => !sep.contains u).reverse

def folderName (path : Str) : Str := if basename path = [] then path else basename path

def startsWith (s start : Str) : Bool := start.isPrefixOf s
def endsWith (s ending : Str) : Bool := ending.isSuffixOf s

def WorktreeLink.key (repositoryId path : Str) : Str := repositoryId ++ 0 :: path

def ListedWorktree.key (worktree : ListedWorktree) : Str :=
  WorktreeLink.key worktree.repositoryId worktree.path

def linkKey (link : WorkspaceFolderWorktreeLink) : Str :=
  WorktreeLink.key link.repositoryId link.path

def ListedWorktree.contains (canonicalProjectRoot : Str) (worktree : ListedWorktree) : Bool :=
  canonicalProjectRoot == worktree.path ||
    startsWith canonicalProjectRoot
      (if endsWith worktree.path sep then worktree.path else worktree.path ++ sep)

/-- Deeper paths first; equal lengths keep their order. -/
def deepestFirst (worktrees : List ListedWorktree) : List ListedWorktree :=
  worktrees.insertionSort fun a b => b.path.length ≤ a.path.length

/-- The checkout that General stands for, first among equals, is the one entry that is left out. -/
def worktreesNeedingFolders (worktrees : List ListedWorktree) (canonicalProjectRoot : Str) :
    List ListedWorktree :=
  let foldered := worktrees.filter fun worktree => !worktree.isBare
  let home := (deepestFirst (foldered.filter fun worktree =>
    !worktree.isPrunable && worktree.contains canonicalProjectRoot)).head?
  match home with
  | some home => foldered.erase home
  | none => foldered

theorem worktreesNeedingFolders_length (worktrees : List ListedWorktree) (root : Str) :
    (worktreesNeedingFolders worktrees root).length ≤ worktrees.length := by
  have hbare : (worktrees.filter fun worktree => !worktree.isBare).length ≤ worktrees.length :=
    List.length_filter_le _ _
  simp only [worktreesNeedingFolders]
  split
  · exact (List.length_erase_le).trans hbare
  · exact hbare

example : folderName (js "/work/feature-a/") = js "feature-a" := by decide

end Terminay.Folders
