import ClaimRush.Furnace.Backing

/-!
# A wired deployment

Lock contract 1, CLAIM 2, Furnace 3, MineCore 4, royalties 5, market 6, an
account 7 with CLAIM, owner 9, quoter 10, delegation hub 11, registry 12 and
router 13.
-/

namespace ClaimRush.Furnace

def wiredCall (delay sender : ℕ) : Call where
  timestamp := delay + 1
  timestamp_pos := Nat.succ_pos delay
  sender := sender
  codeLength := fun a ↦ if a ≤ 6 ∨ 10 ≤ a then 1 else 0
  delegatedEOA := fun _ ↦ false
  staticcallAddress := fun _ selector ↦
    match selector with
    | .ve => 1
    | .claim | .claimToken => 2
    | .furnace => 3
    | .mineCore => 4
    | .royalties | .shareholderRoyalties => 5
    | .mineMarket => 6
    | .delegationHub => 11
    | .claimAllHelper => 0
  isAuthorized := fun _ _ _ _ ↦ false
  onERC721Received := fun _ ↦ true
  value := 0
  emissionStartTime := fun _ ↦ some 1
  furnaceEmissionRateAt := fun _ _ ↦ some (10 ^ 18)
  routerConfig := fun _ ↦ some ⟨13, 13, 13, 2⟩
  notifyRewards := fun _ _ ↦ true

def wiredWorld : World Unit where
  furnace := initial 3 9 1
  base :=
    { ve := { VeClaimNFT.initial 1 2 9 1 with furnace := 3, mineMarket := 6 }
      royalties := ()
      claim :=
        { self := 2, wiringProbe := 8, mineCore := 4
          balanceOf := fun a ↦ if a = 7 then 10 ^ 27 else 0
          allowance := fun _ _ ↦ 2 ^ 255, totalSupply := 10 ^ 27 } }

theorem wiredWorld_reachable :
    (systemOf VeClaimNFT.acceptingPort Op.Covered).Reachable ⟨1, wiredWorld⟩ :=
  .init ⟨3, 9, wiredWorld.base, by decide, rfl⟩

def wiringCalls : List (Call × Op Unit) :=
  [(wiredCall 1 9, .setMineCore 4), (wiredCall 1 9, .setShareholderRoyalties 5),
    (wiredCall 1 9, .setMineMarket 6), (wiredCall 1 9, .setFurnaceQuoter 10),
    (wiredCall 1 9, .setEntryTokenRegistry 0 12)]

/-- The deployment with new locks of 30 days of these amounts. -/
def lockedWorld (amounts : List ℕ) : Except Error (World Unit) :=
  runCalls (fun c w ↦ exec VeClaimNFT.acceptingPort c.1 w c.2)
    (wiringCalls ++ amounts.map fun amount ↦
      (wiredCall 2 7, .enterWithClaim amount ⟨0, 2592000, false, 1⟩)) wiredWorld

/-- The market moves a lock of account 7 to the Furnace, which is called back. -/
def handTo (w : World Unit) (tokenId : ℕ) : Except Error (World Unit) := do
  let base ← VeClaimNFT.transferFrom VeClaimNFT.acceptingPort (wiredCall 2 6).toCall w.base 7
    w.furnace.self tokenId
  let w ← exec VeClaimNFT.acceptingPort (wiredCall 2 6) w (.outside base)
  exec VeClaimNFT.acceptingPort (wiredCall 2 1) w (.onERC721Received 6 7 tokenId)

end ClaimRush.Furnace
