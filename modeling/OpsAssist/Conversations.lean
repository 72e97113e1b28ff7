/-
# OpsAssist.Conversations -- conversations and who owns them

A conversation owned by someone else cannot be told from one that does not exist.
-/
import OpsAssist.Rag
import OpsAssist.Theory.Stamp

namespace OpsAssist

set_option autoImplicit false

open Theory

/-- A row of `conversations`; its timestamps are left out. -/
structure Conversation where
  id : Uuid
  userId : String
  title : Option String := none
  /-- rolling summary of the turns up to `summaryUptoSeq` -/
  summary : Option Text := none
  summaryUptoSeq : Option Nat := none
  /-- the most sensitive classification any answer has drawn on -/
  contextClassification : Option Classification := none
  modelId : Option String := none

inductive MessageStatus where
  | complete
  | partial_
  | error
deriving DecidableEq

/-- A row of `messages`, with the columns a later turn reads. -/
structure Message where
  seq : Nat
  conversationId : Uuid
  fromUser : Bool
  content : Text
  status : MessageStatus := .complete

/-- The caller's conversation, or `ConversationNotFound`. -/
def getOwned (conversations : List Conversation) (conversationId : Uuid) (userId : String) :
    Option Conversation :=
  conversations.find? fun c => c.id == conversationId && c.userId == userId

/-- The caller's conversation, or a new one under the UUID generated for it; with the
rows after it. -/
def getOrCreate (conversations : List Conversation) (conversationId : Option Uuid)
    (userId firstMessage : String) (uuid : Uuid) : Option (Conversation × List Conversation) :=
  match conversationId with
  | some id => (getOwned conversations id userId).map fun c => (c, conversations)
  | none =>
      let created : Conversation :=
        { id := uuid, userId, title := some (String.ofList (firstMessage.toList.take 80)) }
      some (created, conversations ++ [created])

end OpsAssist
