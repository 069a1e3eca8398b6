/-
What operations put on record while they run, with the importance of each record.
-/
import Depot.Failure

namespace Depot

open Depot.Text

/-- the importance of a record, from the least -/
inductive Level where
  | debug
  | info
  | warning
  | error
  deriving DecidableEq, Repr

def Level.rank : Level → Nat
  | .debug => 0
  | .info => 1
  | .warning => 2
  | .error => 3

inductive Event where
  | staged (path : Disk.Path) (size : Nat)
  | temporaryKept (path : Disk.Path)
  | uploading (key : String)
  | uploaded (key : String)
  | uploadFailed (key : String)
  | openFailed (key : String)
  | deletingContent (key : String)
  | deleteFailed (key : String)
  | contentsDeleted (count : Int) (selection : Selection)
  | contentsNotDeleted (selection : Selection)
  | contentNotDeleted (key text : Option String)
  | contentsNotListed
  | unreadableTime (key text : String)
  | taskFailed (task : Task)
  | stored (id name : String) (size : Int) (space : String)
  | entryDeleted (id space : String)
  | entriesDeletedBefore (count : Nat) (cutoff : Time.Timestamp)
  | contentMissing (id space : String)
  | willDelete (kind : String) (cutoff : Time.Timestamp)
  | expiredFound (total : Int) (kind : String) (pages : Int)
  | deleting (item : String)
  | itemNotDeleted (item : String)
  | itemGone (item : String)
  | itemsDeleted (count : Nat) (kind : String)
  | cleanupFailed (kind : String)
  deriving DecidableEq

namespace Event

def level : Event → Level
  | .staged .. | .expiredFound .. | .deleting _ | .itemGone _ => .debug
  | .uploading _ | .uploaded _ | .deletingContent _ | .contentsDeleted .. | .stored .. | .entryDeleted ..
  | .entriesDeletedBefore .. | .willDelete .. | .itemsDeleted .. => .info
  | .temporaryKept _ | .contentNotDeleted .. | .unreadableTime .. | .contentMissing .. | .itemNotDeleted _ => .warning
  | .uploadFailed _ | .openFailed _ | .deleteFailed _ | .contentsNotDeleted _ | .contentsNotListed | .taskFailed _
  | .cleanupFailed _ => .error

def message : Event → String
  | .staged path size => "Staged upload to " ++ path.text ++ " (" ++ Numeral.ofNat size ++ " bytes)"
  | .temporaryKept path => "Failed to remove temporary upload file: " ++ path.text
  | .uploading key => "Uploading file content to storage: " ++ key
  | .uploaded key => "Successfully uploaded file content: " ++ key
  | .uploadFailed key => "Failed to upload file content: " ++ key
  | .openFailed key => "Failed to open file content: " ++ key
  | .deletingContent key => "Deleting file content from storage: " ++ key
  | .deleteFailed key => "Failed to delete file content: " ++ key
  | .contentsDeleted count selection =>
    "Deleted " ++ Numeral.ofInt count ++ " file contents: " ++ selection.text
  | .contentsNotDeleted selection => "Failed to delete file contents: " ++ selection.text
  | .contentNotDeleted key text =>
    "Failed to delete file content " ++ key.getD "None" ++ ": " ++ text.getD "None"
  | .contentsNotListed => "Failed to list file contents"
  | .unreadableTime key text => "Invalid modified metadata on " ++ key ++ ": " ++ text
  | .taskFailed task => task.message
  | .stored id name size space =>
    "Stored file " ++ id ++ " (" ++ name ++ ", " ++ Numeral.ofInt size ++ " bytes) in space " ++ space
  | .entryDeleted id space => "Deleted file " ++ id ++ " from space " ++ space
  | .entriesDeletedBefore count cutoff =>
    "Deleted " ++ Numeral.ofNat count ++ " files modified before " ++ cutoff.spaced
  | .contentMissing id space =>
    "Content of file " ++ id ++ " is missing in space " ++ space ++ ", removing its entry"
  | .willDelete kind cutoff => "Will delete " ++ kind ++ " before " ++ cutoff.iso
  | .expiredFound total kind pages =>
    "Found " ++ Numeral.ofInt total ++ " expired " ++ kind ++ " in " ++ Numeral.ofInt pages ++ " pages"
  | .deleting item => "Deleting " ++ item
  | .itemNotDeleted item => "Could not delete " ++ item
  | .itemGone item => item ++ " was already gone"
  | .itemsDeleted count kind => "Deleted " ++ Numeral.ofNat count ++ " " ++ kind
  | .cleanupFailed kind => "Cleanup of " ++ kind ++ " failed"

end Event

end Depot
