import Mathlib.Data.BitVec
import Mathlib.Tactic.Common

/-!
# The table of the Shift-JIS characters

`pucTable` has two bytes for each character of the sections of `ShiftJis2UTF8`: the characters of
one byte and those behind the leading half-bytes 8, 9 and E.

## Main definitions

- `pucTable` — a checked read of the table
- `validValue` — a Unicode value that a text can have

## Main results

- `pucTable_valid` — every entry but the first is such a value
-/

namespace Mupen64plus

/-- The length of `pucTable`. -/
def pucTableSize : ℕ := 25088

/-- The bytes of `pucTable`, 32 in a row. -/
def pucRows : List ℕ := [
  0x0000000100020003000400050006000700080009000a000b000c000d000e000f,
  0x0010001100120013001400150016001700180019001a001b001c001d001e001f,
  0x0020002100220023002400250026002700280029002a002b002c002d002e002f,
  0x0030003100320033003400350036003700380039003a003b003c003d003e003f,
  0x0040004100420043004400450046004700480049004a004b004c004d004e004f,
  0x0050005100520053005400550056005700580059005a005b00a5005d005e005f,
  0x0060006100620063006400650066006700680069006a006b006c006d006e006f,
  0x0070007100720073007400750076007700780079007a007b007c007d203e0020,
  0x0020002000200020002000200020002000200020002000200020002000200020,
  0x0020002000200020002000200020002000200020002000200020002000200020,
  0x0020ff61ff62ff63ff64ff65ff66ff67ff68ff69ff6aff6bff6cff6dff6eff6f,
  0xff70ff71ff72ff73ff74ff75ff76ff77ff78ff79ff7aff7bff7cff7dff7eff7f,
  0xff80ff81ff82ff83ff84ff85ff86ff87ff88ff89ff8aff8bff8cff8dff8eff8f,
  0xff90ff91ff92ff93ff94ff95ff96ff97ff98ff99ff9aff9bff9cff9dff9eff9f,
  0x0020002000200020002000200020002000200020002000200020002000200020,
  0x0020002000200020002000200020002000200020002000200020002000200020,
  0x0020002000200020002000200020002000200020002000200020002000200020,
  0x0020002000200020002000200020002000200020002000200020002000200020,
  0x0020002000200020002000200020002000200020002000200020002000200020,
  0x0020002000200020002000200020002000200020002000200020002000200020,
  0x0020002000200020002000200020002000200020002000200020002000200020,
  0x0020002000200020002000200020002000200020002000200020002000200020,
  0x0020002000200020002000200020002000200020002000200020002000200020,
  0x0020002000200020002000200020002000200020002000200020002000200020,
  0x0020002000200020002000200020002000200020002000200020002000200020,
  0x0020002000200020002000200020002000200020002000200020002000200020,
  0x0020002000200020002000200020002000200020002000200020002000200020,
  0x0020002000200020002000200020002000200020002000200020002000200020,
  0x0020002000200020002000200020002000200020002000200020002000200020,
  0x0020002000200020002000200020002000200020002000200020002000200020,
  0x0020002000200020002000200020002000200020002000200020002000200020,
  0x0020002000200020002000200020002000200020002000200020002000200020,
  0x0020002000200020002000200020002000200020002000200020002000200020,
  0x0020002000200020002000200020002000200020002000200020002000200020,
  0x0020002000200020002000200020002000200020002000200020002000200020,
  0x0020002000200020002000200020002000200020002000200020002000200020,
  0x300030013002ff0cff0e30fbff1aff1bff1fff01309b309c00b4ff4000a8ff3e,
  0xffe3ff3f30fd30fe309d309e30034edd30053006300730fc20152010ff0f005c,
  0x301c2016ff5c2026202520182019201c201dff08ff0930143015ff3bff3dff5b,
  0xff5d30083009300a300b300c300d300e300f30103011ff0b221200b100d70020,
  0x00f7ff1d2260ff1cff1e22662267221e22342642264000b0203220332103ffe5,
  0xff0400a200a3ff05ff03ff06ff0aff2000a72606260525cb25cf25ce25c725c6,
  0x25a125a025b325b225bd25bc203b301221922190219121933013002000200020,
  0x002000200020002000200020002000202208220b2286228722822283222a2229,
  0x002000200020002000200020002000202227222800ac21d221d4220022030020,
  0x0020002000200020002000200020002000200020222022a52312220222072261,
  0x2252226a226b221a223d221d2235222b222c0020002000200020002000200020,
  0x212b2030266f266d266a2020202100b6002000200020002025ef002000200020,
  0x0020002000200020002000200020002000200020002000200020002000200020,
  0x0020002000200020002000200020002000200020002000200020002000200020,
  0x0020002000200020002000200020002000200020002000200020002000200020,
  0x0020002000200020002000200020002000200020002000200020002000200020,
  0x002000200020002000200020002000200020002000200020002000200020ff10,
  0xff11ff12ff13ff14ff15ff16ff17ff18ff190020002000200020002000200020,
  0xff21ff22ff23ff24ff25ff26ff27ff28ff29ff2aff2bff2cff2dff2eff2fff30,
  0xff31ff32ff33ff34ff35ff36ff37ff38ff39ff3a002000200020002000200020,
  0x0020ff41ff42ff43ff44ff45ff46ff47ff48ff49ff4aff4bff4cff4dff4eff4f,
  0xff50ff51ff52ff53ff54ff55ff56ff57ff58ff59ff5a00200020002000203041,
  0x30423043304430453046304730483049304a304b304c304d304e304f30503051,
  0x30523053305430553056305730583059305a305b305c305d305e305f30603061,
  0x30623063306430653066306730683069306a306b306c306d306e306f30703071,
  0x30723073307430753076307730783079307a307b307c307d307e307f30803081,
  0x30823083308430853086308730883089308a308b308c308d308e308f30903091,
  0x3092309300200020002000200020002000200020002000200020002000200020,
  0x0020002000200020002000200020002000200020002000200020002000200020,
  0x0020002000200020002000200020002000200020002000200020002000200020,
  0x0020002000200020002000200020002000200020002000200020002000200020,
  0x0020002000200020002000200020002000200020002000200020002000200020,
  0x30a130a230a330a430a530a630a730a830a930aa30ab30ac30ad30ae30af30b0,
  0x30b130b230b330b430b530b630b730b830b930ba30bb30bc30bd30be30bf30c0,
  0x30c130c230c330c430c530c630c730c830c930ca30cb30cc30cd30ce30cf30d0,
  0x30d130d230d330d430d530d630d730d830d930da30db30dc30dd30de30df0020,
  0x30e030e130e230e330e430e530e630e730e830e930ea30eb30ec30ed30ee30ef,
  0x30f030f130f230f330f430f530f6002000200020002000200020002000200391,
  0x03920393039403950396039703980399039a039b039c039d039e039f03a003a1,
  0x03a303a403a503a603a703a803a90020002000200020002000200020002003b1,
  0x03b203b303b403b503b603b703b803b903ba03bb03bc03bd03be03bf03c003c1,
  0x03c303c403c503c603c703c803c9002000200020002000200020002000200020,
  0x0020002000200020002000200020002000200020002000200020002000200020,
  0x0020002000200020002000200020002000200020002000200020002000200020,
  0x0020002000200020002000200020002000200020002000200020002000200020,
  0x0020002000200020002000200020002000200020002000200020002000200020,
  0x0020002000200020002000200020002000200020002000200020002000200020,
  0x0020002000200020002000200020002000200020002000200020002000200020,
  0x04100411041204130414041504010416041704180419041a041b041c041d041e,
  0x041f0420042104220423042404250426042704280429042a042b042c042d042e,
  0x042f002000200020002000200020002000200020002000200020002000200020,
  0x04300431043204330434043504510436043704380439043a043b043c043d0020,
  0x043e043f0440044104420443044404450446044704480449044a044b044c044d,
  0x044e044f00200020002000200020002000200020002000200020002000202500,
  0x2502250c251025182514251c252c25242534253c25012503250f2513251b2517,
  0x25232533252b253b254b2520252f25282537253f251d25302525253825420020,
  0x0020002000200020002000200020002000200020002000200020002000200020,
  0x0020002000200020002000200020002000200020002000200020002000200020,
  0x0020002000200020002000200020002000200020002000200020002000200020,
  0x0020002000200020002000200020002000200020002000200020002000200020,
  0x0020002000200020002000200020002000200020002000200020002000200020,
  0x0020002000200020002000200020002000200020002000200020002000200020,
  0x0020002000200020002000200020002000200020002000200020002000200020,
  0x0020002000200020002000200020002000200020002000200020002000200020,
  0x0020002000200020002000200020002000200020002000200020002000200020,
  0x0020002000200020002000200020002000200020002000200020002000200020,
  0x0020002000200020002000200020002000200020002000200020002000200020,
  0x0020002000200020002000200020002000200020002000200020002000200020,
  0x0020002000200020002000200020002000200020002000200020002000200020,
  0x0020002000200020002000200020002000200020002000200020002000200020,
  0x0020002000200020002000200020002000200020002000200020002000200020,
  0x0020002000200020002000200020002000200020002000200020002000200020,
  0x0020002000200020002000200020002000200020002000200020002000200020,
  0x0020002000200020002000200020002000200020002000200020002000200020,
  0x0020002000200020002000200020002000200020002000200020002000200020,
  0x0020002000200020002000200020002000200020002000200020002000200020,
  0x0020002000200020002000200020002000200020002000200020002000200020,
  0x0020002000200020002000200020002000200020002000200020002000200020,
  0x0020002000200020002000200020002000200020002000200020002000200020,
  0x0020002000200020002000200020002000200020002000200020002000200020,
  0x0020002000200020002000200020002000200020002000200020002000200020,
  0x0020002000200020002000200020002000200020002000200020002000200020,
  0x0020002000200020002000200020002000200020002000200020002000200020,
  0x0020002000200020002000200020002000200020002000200020002000200020,
  0x0020002000200020002000200020002000200020002000200020002000200020,
  0x0020002000200020002000200020002000200020002000200020002000200020,
  0x0020002000200020002000200020002000200020002000200020002000200020,
  0x0020002000200020002000200020002000200020002000200020002000200020,
  0x0020002000200020002000200020002000200020002000200020002000200020,
  0x0020002000200020002000200020002000200020002000200020002000200020,
  0x0020002000200020002000200020002000200020002000200020002000200020,
  0x0020002000200020002000200020002000200020002000200020002000200020,
  0x0020002000200020002000200020002000200020002000200020002000200020,
  0x0020002000200020002000200020002000200020002000200020002000200020,
  0x0020002000200020002000200020002000200020002000200020002000200020,
  0x0020002000200020002000200020002000200020002000200020002000200020,
  0x0020002000200020002000200020002000200020002000200020002000200020,
  0x0020002000200020002000200020002000200020002000200020002000200020,
  0x0020002000200020002000200020002000200020002000200020002000200020,
  0x0020002000200020002000200020002000200020002000200020002000200020,
  0x0020002000200020002000200020002000200020002000200020002000200020,
  0x0020002000200020002000200020002000200020002000200020002000200020,
  0x0020002000200020002000200020002000200020002000200020002000200020,
  0x0020002000200020002000200020002000200020002000200020002000200020,
  0x0020002000200020002000200020002000200020002000200020002000200020,
  0x0020002000200020002000200020002000200020002000200020002000200020,
  0x0020002000200020002000200020002000200020002000200020002000200020,
  0x0020002000200020002000200020002000200020002000200020002000200020,
  0x0020002000200020002000200020002000200020002000200020002000200020,
  0x0020002000200020002000200020002000200020002000200020002000200020,
  0x0020002000200020002000200020002000200020002000200020002000200020,
  0x0020002000200020002000200020002000200020002000200020002000200020,
  0x0020002000200020002000200020002000200020002000200020002000200020,
  0x0020002000200020002000200020002000200020002000200020002000200020,
  0x0020002000200020002000200020002000200020002000200020002000200020,
  0x0020002000200020002000200020002000200020002000200020002000200020,
  0x0020002000200020002000200020002000200020002000200020002000200020,
  0x0020002000200020002000200020002000200020002000200020002000204e9c,
  0x55165a03963f54c0611b632859f690228475831c7a5060aa63e16e2565ed8466,
  0x82a69bf56893572765a162715b9b59d0867b98f47d627dbe9b8e62167c9f88b7,
  0x5b895eb563096697684895c7978d674f4ee54f0a4f4d4f9d504956f2593759d4,
  0x5a015c0960df610f61706613690570ba754f757079fb7dad7def80c3840e8863,
  0x8b029055907a533b4e954ea557df80b290c178ef4e0058f16ea290387a328328,
  0x828b9c2f5141537054bd54e156e059fb5f1598f26deb80e4852d002000200020,
  0x0020002000200020002000200020002000200020002000200020002000200020,
  0x0020002000200020002000200020002000200020002000200020002000200020,
  0x0020002000200020002000200020002000200020002000200020002000200020,
  0x0020002000200020002000200020002000200020002000200020002000200020,
  0x9662967096a097fb540b53f35b8770cf7fbd8fc296e8536f9d5c7aba4e117893,
  0x81fc6e26561855046b1d851a9c3b59e553a96d6674dc958f56424e91904b96f2,
  0x834f990c53e155b65b305f71662066f368046c386cf36d29745b76c87a4e9834,
  0x82f1885b8a6092ed6db275ab76ca99c560a68b018d8a95b2698e53ad51860020,
  0x5712583059445bb45ef6602863a963f46cbf6f14708e7114715971d5733f7e01,
  0x827682d185979060925b9d1b586965bc6c5a752551f9592e59655f805fdc62bc,
  0x65fa6a2a6b276bb4738b7fc189569d2c9d0e9ec45ca16c96837b51045c4b61b6,
  0x81c6687672614e594ffa537860696e297a4f97f34e0b53164eee4f554f3d4fa1,
  0x4f7352a053ef5609590f5ac15bb65be179d16687679c67b66b4c6cb3706b73c2,
  0x798d79be7a3c7b8782b182db8304837783ef83d387668ab256298ca88fe6904e,
  0x971e868a4fc45ce862117259753b81e582bd86fe8cc096c5991399d54ecb4f1a,
  0x89e356de584a58ca5efb5feb602a6094606261d0621262d06539002000200020,
  0x0020002000200020002000200020002000200020002000200020002000200020,
  0x0020002000200020002000200020002000200020002000200020002000200020,
  0x0020002000200020002000200020002000200020002000200020002000200020,
  0x0020002000200020002000200020002000200020002000200020002000200020,
  0x9b41666668b06d777070754c76867d7582a587f9958b968e8c9d51f152be5916,
  0x54b35bb35d16616869826daf788d84cb88578a7293a79ab86d6c99a886d957a3,
  0x67ff86ce920e5283568754045ed362e164b9683c68386bbb737278ba7a6b899a,
  0x89d28d6b8f0390ed95a3969497695b665cb3697d984d984e639b7b206a2b0020,
  0x6a7f68b69c0d6f5f5272559d607062ec6d3b6e076ed1845b89108f444e149c39,
  0x53f6691b6a3a9784682a515c7ac384b291dc938c565b9d286822830584317ca5,
  0x520882c574e64e7e4f8351a05bd2520a52d852e75dfb559a582a59e65b8c5b98,
  0x5bdb5e725e7960a3611f616361be63db656267d1685368fa6b3e6b536c576f22,
  0x6f976f4574b0751876e3770b7aff7ba17c217de97f367ff0809d8266839e89b3,
  0x8acc8cab908494519593959195a2966597d3992882184e38542b5cb85dcc73a9,
  0x764c773c5ca97feb8d0b96c19811985498584f014f0e5371559c566857fa5947,
  0x5b095bc45c905e0c5e7e5fcc63ee673a65d765e2671f68cb68c4002000200020,
  0x0020002000200020002000200020002000200020002000200020002000200020,
  0x0020002000200020002000200020002000200020002000200020002000200020,
  0x0020002000200020002000200020002000200020002000200020002000200020,
  0x0020002000200020002000200020002000200020002000200020002000200020,
  0x6a5f5e306bc56c176c7d757f79485b637a007d005fbd898f8a188cb48d778ecc,
  0x8f1d98e29a0e9b3c4e80507d510059935b9c622f628064ec6b3a72a075917947,
  0x7fa987fb8abc8b7063ac83ca97a05409540355ab68546a588a70782767759ecd,
  0x53745ba2811a865090064e184e454ec74f1153ca54385bae5f13602565510020,
  0x673d6c426c726ce3707874037a767aae7b087d1a7cfe7d6665e7725b53bb5c45,
  0x5de862d262e063196e20865a8a318ddd92f86f0179a69b5a4ea84eab4eac4f9b,
  0x4fa050d151477af6517151f653545321537f53eb55ac58835ce15f375f4a602f,
  0x6050606d631f65596a4b6cc172c272ed77ef80f881058208854e90f793e197ff,
  0x99579a5a4ef051dd5c2d6681696d5c4066f26975738968507c8150c552e45747,
  0x5dfe932665a46b236b3d7434798179bd7b4b7dca82b983cc887f895f8b398fd1,
  0x91d1541f92804e5d503653e5533a72d7739677e982e68eaf99c699c899d25177,
  0x611a865e55b07a7a50765bd3904796854e326adb91e75c515c48002000200020,
  0x0020002000200020002000200020002000200020002000200020002000200020,
  0x0020002000200020002000200020002000200020002000200020002000200020,
  0x0020002000200020002000200020002000200020002000200020002000200020,
  0x0020002000200020002000200020002000200020002000200020002000200020,
  0x63987a9f6c9397748f617aaa718a96887c8268177e706851936c52f2541b85ab,
  0x8a137fa48ecd90e15366888879414fc250be521151445553572d73ea578b5951,
  0x5f625f8460756176616761a963b2643a656c666f68426e1375667a3d7cfb7d4c,
  0x7d997e4b7f6b830e834a86cd8a088a638b668efd981a9d8f82b88fce9be80020,
  0x5287621f64836fc09699684150916b206c7a6f547a747d5088408a2367084ef6,
  0x503950265065517c5238526355a7570f58055acc5efa61b261f862f36372691c,
  0x6a29727d72ac732e7814786f7d79770c80a9898b8b198ce28ed290639375967a,
  0x98559a139e785143539f53b35e7b5f266e1b6e90738473fe7d4382378a008afa,
  0x96504e4e500b53e4547c56fa59d15b645df15eab5f276238654567af6e5672d0,
  0x7cca88b480a180e183f0864e8a878de8923796c798679f134e944e924f0d5348,
  0x5449543e5a2f5f8c5fa1609f68a76a8e745a78818a9e8aa48b7791904e5e9bc9,
  0x4ea44f7c4faf501950165149516c529f52b952fe539a53e35411002000200020,
  0x0020002000200020002000200020002000200020002000200020002000200020,
  0x0020002000200020002000200020002000200020002000200020002000200020,
  0x0020002000200020002000200020002000200020002000200020002000200020,
  0x0020002000200020002000200020002000200020002000200020002000200020,
  0x540e5589575157a2597d5b545b5d5b8f5de55de75df75e785e835e9a5eb75f18,
  0x6052614c629762d863a7653b6602664366f4676d6821689769cb6c5f6d2a6d69,
  0x6e2f6e9d75327687786c7a3f7ce07d057d187d5e7db18015800380af80b18154,
  0x818f822a8352884c88618b1b8ca28cfc90ca91759271783f92fc95a4964d0020,
  0x980599999ad89d3b525b52ab53f7540858d562f76fe08c6a8f5f9eb9514b523b,
  0x544a56fd7a4091779d609ed273446f09817075115ffd60da9aa872db8fbc6b64,
  0x98034eca56f0576458be5a5a606861c7660f6606683968b16df775d57d3a826e,
  0x9b424e9b4f5053c955065d6f5de65dee67fb6c99747378028a50939688df5750,
  0x5ea7632b50b550ac518d670054c9585e59bb5bb05f69624d63a1683d6b736e08,
  0x707d91c7728078157826796d658e7d3083dc88c18f09969b5264572867507f6a,
  0x8ca151b45742962a583a698a80b454b25d0e57fc78959dfa4f5c524a548b643e,
  0x6628671467f57a847b567d22932f685c9bad7b395319518a5237002000200020,
  0x0020002000200020002000200020002000200020002000200020002000200020,
  0x0020002000200020002000200020002000200020002000200020002000200020,
  0x0020002000200020002000200020002000200020002000200020002000200020,
  0x0020002000200020002000200020002000200020002000200020002000200020,
  0x5bdf62f664ae64e6672d6bba85a996d176909bd6634c93069bab76bf66524e09,
  0x509853c25c7160e864926563685f71e673ca75237b977e8286958b838cdb9178,
  0x991065ac66ab6b8b4ed54ed44f3a4f7f523a53f853f255e356db58eb59cb59c9,
  0x59ff5b505c4d5e025e2b5fd7601d6307652f5b5c65af65bd65e8679d6b620020,
  0x6b7b6c0f7345794979c17cf87d197d2b80a2810281f389968a5e8a698a668a8c,
  0x8aee8cc78cdc96cc98fc6b6f4e8b4f3c4f8d51505b575bfa6148630166426b21,
  0x6ecb6cbb723e74bd75d478c1793a800c803381ea84948f9e6c509e7f5f0f8b58,
  0x9d2b7afa8ef85b8d96eb4e0353f157f759315ac95ba460896e7f6f0675be8cea,
  0x5b9f85007be0507267f4829d5c61854a7e1e820e51995c0463688d66659c716e,
  0x793e7d1780058b1d8eca906e86c790aa501f52fa5c3a6753707c7235914c91c8,
  0x932b82e55bc25f3160f94e3b53d65b88624b67316b8a72e973e07a2e816b8da3,
  0x91529996511253d7546a5bff63886a397dac970056da53ce5468002000200020,
  0x0020002000200020002000200020002000200020002000200020002000200020,
  0x0020002000200020002000200020002000200020002000200020002000200020,
  0x0020002000200020002000200020002000200020002000200020002000200020,
  0x0020002000200020002000200020002000200020002000200020002000200020,
  0x5b975c315dde4fee610162fe6d3279c079cb7d427e4d7fd281ed821f84908846,
  0x89728b908e748f2f9031914b916c96c6919c4ec04f4f514553415f93620e67d4,
  0x6c416e0b73637e2691cd928353d459195bbf6dd1795d7e2e7c9b587e719f51fa,
  0x88538ff04fca5cfb662577ac7ae3821c99ff51c65faa65ec696f6b896df30020,
  0x6e966f6476fe7d145de190759187980651e6521d6240669166d96e1a5eb67dd2,
  0x7f7266f885af85f78af852a953d959735e8f5f90605592e4966450b7511f52dd,
  0x5320534753ec54e8554655315617596859be5a3c5bb55c065c0f5c115c1a5e84,
  0x5e8a5ee05f70627f628462db638c63776607660c662d6676677e68a26a1f6a35,
  0x6cbc6d886e096e58713c7126716775c77701785d7901796579f07ae07b117ca7,
  0x7d39809683d6848b8549885d88f38a1f8a3c8a548a738c618cde91a49266937e,
  0x9418969c97984e0a4e084e1e4e575197527057ce583458cc5b225e3860c564fe,
  0x676167566d4472b675737a6384b88b7291b89320563157f498fe002000200020,
  0x0020002000200020002000200020002000200020002000200020002000200020,
  0x0020002000200020002000200020002000200020002000200020002000200020,
  0x0020002000200020002000200020002000200020002000200020002000200020,
  0x0020002000200020002000200020002000200020002000200020002000200020,
  0x62ed690d6b9671ed7e548077827289e698df87558fb15c3b4f384fe14fb55507,
  0x5a205bdd5be95fc3614e632f65b0664b68ee699b6d786df1753375b9771f795e,
  0x79e67d3381e382af85aa89aa8a3a8eab8f9b903291dd97074eba4ec152035875,
  0x58ec5c0b751a5c3d814e8a0a8fc59663976d7b258acf9808916256f353a80020,
  0x9017543957825e2563a86c34708a77617c8b7fe088709042915493109318968f,
  0x745e9ac45d075d69657067a28da896db636e6749691983c5981796c088fe6f84,
  0x647a5bf84e16702c755d662f51c4523652e259d35f8160276210653f6574661f,
  0x667468f268166b636e057272751f76db7cbe805658f088fd897f8aa08a938acb,
  0x901d91929752975965897a0e810696bb5e2d60dc621a65a56614679077f37a4d,
  0x7c4d7e3e810a8cac8d648de18e5f78a9520762d963a5644262988a2d7a837bc0,
  0x8aac96ea7d76820c87494ed95148534353605ba35c025c165ddd6226624764b0,
  0x681368346cc96d456d1767d36f5c714e717d65cb7a7f7bad7dda002000200020,
  0x0020002000200020002000200020002000200020002000200020002000200020,
  0x0020002000200020002000200020002000200020002000200020002000200020,
  0x0020002000200020002000200020002000200020002000200020002000200020,
  0x0020002000200020002000200020002000200020002000200020002000200020,
  0x7e4a7fa8817a821b823985a68a6e8cce8df59078907792ad929195839bae524d,
  0x55846f387136516879857e5581b37cce564c58515ca863aa66fe66fd695a72d9,
  0x758f758e790e795679df7c977d207d4486078a34963b90619f2050e7527553cc,
  0x53e2500955aa58ee594f723d5b8b5c64531d60e360f3635c6383633f63bb0020,
  0x64cd65e966f95de369cd69fd6f1571e54e8975e976f87a937cdf7dcf7d9c8061,
  0x83498358846c84bc85fb88c58d709001906d9397971c9a1250cf5897618e81d3,
  0x85358d0890204fc3507452475373606f6349675f6e2c8db3901f4fd75c5e8cca,
  0x65cf7d9a53528896517663c35b585b6b5c0a640d6751905c4ed6591a592a6c70,
  0x8a51553e581559a560f0625367c182356955964099c49a284f5358065bfe8010,
  0x5cb15e2f5f856020614b623466ff6cf06ede80ce817f82d4888b8cb89000902e,
  0x968a9edb9bdb4ee353f059277b2c918d984c9df96edd7027535355445b856258,
  0x629e62d36ca26fef74228a1794386fc18afe833851e786f853ea002000200020,
  0x0020002000200020002000200020002000200020002000200020002000200020,
  0x0020002000200020002000200020002000200020002000200020002000200020,
  0x0020002000200020002000200020002000200020002000200020002000200020,
  0x0020002000200020002000200020002000200020002000200020002000200020,
  0x53e94f4690548fb0596a81315dfd7aea8fbf68da8c3772f89c486a3d8ab04e39,
  0x53585606576662c563a265e66b4e6de16e5b70ad77ed7aef7baa7dbb803d80c6,
  0x86cb8a95935b56e358c75f3e65ad66966a806bb575378ac7502477e557305f1b,
  0x6065667a6c6075f47a1a7f6e81f48718904599b37bc9755c7af97b5184c40020,
  0x901079e97a9283365ae177404e2d4ef25b995fe062bd663c67f16ce8866b8877,
  0x8a3b914e92f399d06a177026732a82e784578caf4e01514651cb558b5bf55e16,
  0x5e335e815f145f355f6b5fb461f2631166a2671d6f6e7252753a773a80748139,
  0x817887768abf8adc8d858df3929a957798029ce552c5635776f467156c8873cd,
  0x8cc393ae96736d25589c690e69cc8ffd939a75db901a585a680263b469fb4f43,
  0x6f2c67d88fbb85267db49354693f6f70576a58f75b2c7d2c722a540a91e39db4,
  0x4ead4f4e505c507552438c9e544858245b9a5e1d5e955ead5ef75f1f608c62b5,
  0x633a63d068af6c407887798e7a0b7de082478a028ae68e449013002000200020,
  0x0020002000200020002000200020002000200020002000200020002000200020,
  0x0020002000200020002000200020002000200020002000200020002000200020,
  0x0020002000200020002000200020002000200020002000200020002000200020,
  0x0020002000200020002000200020002000200020002000200020002000200020,
  0x90b8912d91d89f0e6ce5645864e265756ef476847b1b906993d16eba54f25fb9,
  0x64a48f4d8fed92445178586b59295c555e976dfb7e8f751c8cbc8ee2985b70b9,
  0x4f1d6bbf6fb1753096fb514e54105835585759ac5c605f926597675c6e21767b,
  0x83df8ced901490fd934d7825783a52aa5ea6571f597460125012515a51ac0020,
  0x51cd520055105854585859575b955cf65d8b60bc6295642d6771684368bc68df,
  0x76d76dd86e6f6d9b706f71c85f5375d879777b497b547b527cd67d7152308463,
  0x856985e48a0e8b048c468e0f9003900f94199676982d9a3095d850cd52d5540c,
  0x58025c0e61a7649e6d1e77b37ae580f48404905392855ce09d07533f5f975fb3,
  0x6d9c7279776379bf7be46bd272ec8aad68036a6151f87a8169345c4a9cf682eb,
  0x5bc59149701e56785c6f60c765666c8c8c5a90419813545166c7920d594890a3,
  0x51854e4d51ea85998b0e7058637a934b696299b47e047577535769608edf96e3,
  0x6c5d4e8c5c3c5f108fe953028cd1808986795eff65e54e735165002000200020,
  0x0020002000200020002000200020002000200020002000200020002000200020,
  0x0020002000200020002000200020002000200020002000200020002000200020,
  0x0020002000200020002000200020002000200020002000200020002000200020,
  0x0020002000200020002000200020002000200020002000200020002000200020,
  0x59825c3f97ee4efb598a5fcd8a8d6fe179b079625be78471732b71b15e745ff5,
  0x637b649a71c37c984e435efc4e4b57dc56a260a96fc37d0d80fd813381bf8fb2,
  0x899786a45df4628a64ad898767776ce26d3e743678345a467f7582ad99ac4ff3,
  0x5ec362dd63926557676f76c3724c80cc80ba8f29914d500d57f95a9268850020,
  0x6973716472fd8cb758f28ce0966a9019877f79e477e784294f2f5265535a62cd,
  0x67cf6cca767d7b947c95823685848feb66dd6f2072067e1b83ab99c19ea651fd,
  0x7bb178727bb880877b486ae85e61808c75517560516b92626e8c767a91979aea,
  0x4f107f70629c7b4f95a59ce9567a585986e496bc4f345224534a53cd53db5e06,
  0x642c6591677f6c3e6c4e724872af73ed75547e41822c85e98ca97bc491c67169,
  0x981298ef633d6669756a76e478d0854386ee532a5351542659835e875f7c60b2,
  0x6249627962ab65906bd46ccc75b276ae789179d87dcb7f7780a588ab8ab98cbb,
  0x907f975e98db6a0b7c3850995c3e5fae67876bd8743577097f8e002000200020,
  0x0020002000200020002000200020002000200020002000200020002000200020,
  0x0020002000200020002000200020002000200020002000200020002000200020,
  0x0020002000200020002000200020002000200020002000200020002000200020,
  0x0020002000200020002000200020002000200020002000200020002000200020,
  0x9f3b67ca7a175339758b9aed5f66819d83f180985f3c5fc575627b46903c6867,
  0x59eb5a9b7d10767e8b2c4ff55f6a6a196c376f0274e2796888688a558c795edf,
  0x63cf75c579d282d7932892f2849c86ed9c2d54c15f6c658c6d5c70158ca78cd3,
  0x983b654f74f64e0d4ed857e0592b5a665bcc51a85e035e9c6016627665770020,
  0x65a7666e6d6e72367b268150819a82998b5c8ca08ce68d74961c96444fae64ab,
  0x6b66821e8461856a90e85c01695398a8847a85574f0f526f5fa95e45670d798f,
  0x8179890789866df55f1762556cb84ecf72699b925206543b567458b361a4626e,
  0x711a596e7c897cde7d1b96f06587805e4e194f75517558405e635e735f0a67c4,
  0x4e26853d9589965b7c73980150fb58c1765678a7522577a585117b86504f5909,
  0x72477bc77de88fba8fd4904d4fbf52c95a295f0197ad4fdd821792ea57036355,
  0x6b69752b88dc8f147a4252df58936155620a66ae6bcd7c3f83e950234ff85305,
  0x5446583159495b9d5cf05cef5d295e9662b16367653e65b9670b002000200020,
  0x0020002000200020002000200020002000200020002000200020002000200020,
  0x0020002000200020002000200020002000200020002000200020002000200020,
  0x0020002000200020002000200020002000200020002000200020002000200020,
  0x0020002000200020002000200020002000200020002000200020002000200020,
  0x6cd56ce170f978327e2b80de82b3840c84ec870289128a2a8c4a90a692d298fd,
  0x9cf39d6c4e4f4ea1508d5256574a59a85e3d5fd85fd9623f66b4671b67d068d2,
  0x51927d2180aa81a88b008c8c8cbf927e96325420982c531750d5535c58a864b2,
  0x6734726777667a4691e652c36ca16b8658005e4c5954672c7ffb51e176c60020,
  0x646978e89b549ebb57cb59b96627679a6bce54e969d95e55819c67959baa67fe,
  0x9c52685d4ea64fe353c862b9672b6cab8fc44fad7e6d9ebf4e0761626e806f2b,
  0x85135473672a9b455df37b955cac5bc6871c6e4a84d17a14810859997c8d6c11,
  0x772052d959227121725f77db97279d61690b5a7f5a1851a5540d547d660e76df,
  0x8ff792989cf459ea725d6ec5514d68c97dbf7dec97629eba64786a2183025984,
  0x5b5f6bdb731b76f27db280178499513267289ed976ee676252ff99055c24623b,
  0x7c7e8cb0554f60b67d0b958053014e5f51b6591c723a803691ce5f2577e25384,
  0x5f797d0485ac8a338e8d975667f385ae9453610961086cb97652002000200020,
  0x0020002000200020002000200020002000200020002000200020002000200020,
  0x0020002000200020002000200020002000200020002000200020002000200020,
  0x0020002000200020002000200020002000200020002000200020002000200020,
  0x0020002000200020002000200020002000200020002000200020002000200020,
  0x8aed8f38552f4f51512a52c753cb5ba55e7d60a0618263d6670967da6e676d8c,
  0x733673377531795088d58a98904a909190f596c4878d59154e884f594e0e8a89,
  0x8f3f981050ad5e7c59965bb95eb863da63fa64c166dc694a69d86d0b6eb67194,
  0x75287aaf7f8a8000844984c989818b218e0a9065967d990a617e62916b320020,
  0x6c836d747fcc7ffc6dc07f8587ba88f8676583b1983c96f76d1b7d61843d916a,
  0x4e7153755d506b046feb85cd862d89a75229540f5c65674e68a87406748375e2,
  0x88cf88e191cc96e296785f8b73877acb844e63a0756552896d416e9c74097559,
  0x786b7c9296867adc9f8d4fb6616e65c5865c4e864eae50da4e2151cc5bee6599,
  0x68816dbc731f764277ad7a1c7ce7826f8ad2907c91cf96759818529b7dd1502b,
  0x539867976dcb71d0743381e88f2a96a39c579e9f746058416d997d2f985e4ee4,
  0x4f364f8b51b752b15dba601c73b2793c82d3923496b796f6970a9e979f6266a6,
  0x6b74521752a370c888c25ec9604b61906f2371497c3e7df4806f002000200020,
  0x0020002000200020002000200020002000200020002000200020002000200020,
  0x0020002000200020002000200020002000200020002000200020002000200020,
  0x0020002000200020002000200020002000200020002000200020002000200020,
  0x0020002000200020002000200020002000200020002000200020002000200020,
  0x84ee9023932c54429b6f6ad370898cc28def973252b45a415eca5f046717697c,
  0x69946d6a6f0f726272fc7bed8001807e874b90ce516d9e937984808b93328ad6,
  0x502d548c8a716b6a8cc4810760d167a09df24e994e989c108a6b85c185686900,
  0x6e7e789781550020002000200020002000200020002000200020002000200020,
  0x0020002000200020002000200020002000200020002000200020002000200020,
  0x0020002000200020002000200020002000200020002000200020002000205f0c,
  0x4e104e154e2a4e314e364e3c4e3f4e424e564e584e824e858c6b4e8a82125f0d,
  0x4e8e4e9e4e9f4ea04ea24eb04eb34eb64ece4ecd4ec44ec64ec24ed74ede4eed,
  0x4edf4ef74f094f5a4f304f5b4f5d4f574f474f764f884f8f4f984f7b4f694f70,
  0x4f914f6f4f864f9651184fd44fdf4fce4fd84fdb4fd14fda4fd04fe44fe5501a,
  0x50285014502a502550054f1c4ff650215029502c4ffe4fef5011500650435047,
  0x6703505550505048505a5056506c50785080509a508550b450b2002000200020,
  0x0020002000200020002000200020002000200020002000200020002000200020,
  0x0020002000200020002000200020002000200020002000200020002000200020,
  0x0020002000200020002000200020002000200020002000200020002000200020,
  0x0020002000200020002000200020002000200020002000200020002000200020,
  0x50c950ca50b350c250d650de50e550ed50e350ee50f950f55109510151025116,
  0x51155114511a5121513a5137513c513b513f51405152514c515451627af85169,
  0x516a516e5180518256d8518c5189518f519151935195519651a451a651a251a9,
  0x51aa51ab51b351b151b251b051b551bd51c551c951db51e0865551e951ed0020,
  0x51f051f551fe5204520b5214520e5227522a522e52335239524f5244524b524c,
  0x525e5254526a527452695273527f527d528d529452925271528852918fa88fa7,
  0x52ac52ad52bc52b552c152cd52d752de52e352e698ed52e052f352f552f852f9,
  0x530653087538530d5310530f5315531a5323532f533153335338534053465345,
  0x4e175349534d51d6535e5369536e5918537b53775382539653a053a653a553ae,
  0x53b053b653c37c1296d953df66fc71ee53ee53e853ed53fa5401543d5440542c,
  0x542d543c542e54365429541d544e548f5475548e545f5471547754705492547b,
  0x5480547654845490548654c754a254b854a554ac54c454c854a8002000200020,
  0x0020002000200020002000200020002000200020002000200020002000200020,
  0x0020002000200020002000200020002000200020002000200020002000200020,
  0x0020002000200020002000200020002000200020002000200020002000200020,
  0x0020002000200020002000200020002000200020002000200020002000200020,
  0x54ab54c254a454be54bc54d854e554e6550f551454fd54ee54ed54fa54e25539,
  0x55405563554c552e555c55455556555755385533555d5599558054af558a559f,
  0x557b557e5598559e55ae557c558355a9558755a855da55c555df55c455dc55e4,
  0x55d4561455f7561655fe55fd561b55f9564e565071df56345636563256380020,
  0x566b5664562f566c566a56865680568a56a05694568f56a556ae56b656b456c2,
  0x56bc56c156c356c056c856ce56d156d356d756ee56f9570056ff570457095708,
  0x570b570d57135718571655c7571c572657375738574e573b5740574f576957c0,
  0x57885761577f5789579357a057b357a457aa57b057c357c657d457d257d3580a,
  0x57d657e3580b5819581d587258215862584b58706bc05852583d5879588558b9,
  0x589f58ab58ba58de58bb58b858ae58c558d358d158d758d958d858e558dc58e4,
  0x58df58ef58fa58f958fb58fc58fd5902590a5910591b68a65925592c592d5932,
  0x5938593e7ad259555950594e595a5958596259605967596c5969002000200020,
  0x0020002000200020002000200020002000200020002000200020002000200020,
  0x0020002000200020002000200020002000200020002000200020002000200020,
  0x0020002000200020002000200020002000200020002000200020002000200020,
  0x0020002000200020002000200020002000200020002000200020002000200020,
  0x59785981599d4f5e4fab59a359b259c659e859dc598d59d959da5a255a1f5a11,
  0x5a1c5a095a1a5a405a6c5a495a355a365a625a6a5a9a5abc5abe5acb5ac25abd,
  0x5ae35ad75ae65ae95ad65afa5afb5b0c5b0b5b165b325ad05b2a5b365b3e5b43,
  0x5b455b405b515b555b5a5b5b5b655b695b705b735b755b7865885b7a5b800020,
  0x5b835ba65bb85bc35bc75bc95bd45bd05be45be65be25bde5be55beb5bf05bf6,
  0x5bf35c055c075c085c0d5c135c205c225c285c385c395c415c465c4e5c535c50,
  0x5c4f5b715c6c5c6e4e625c765c795c8c5c915c94599b5cab5cbb5cb65cbc5cb7,
  0x5cc55cbe5cc75cd95ce95cfd5cfa5ced5d8c5cea5d0b5d155d175d5c5d1f5d1b,
  0x5d115d145d225d1a5d195d185d4c5d525d4e5d4b5d6c5d735d765d875d845d82,
  0x5da25d9d5dac5dae5dbd5d905db75dbc5dc95dcd5dd35dd25dd65ddb5deb5df2,
  0x5df55e0b5e1a5e195e115e1b5e365e375e445e435e405e4e5e575e545e5f5e62,
  0x5e645e475e755e765e7a9ebc5e7f5ea05ec15ec25ec85ed05ecf002000200020,
  0x0020002000200020002000200020002000200020002000200020002000200020,
  0x0020002000200020002000200020002000200020002000200020002000200020,
  0x0020002000200020002000200020002000200020002000200020002000200020,
  0x0020002000200020002000200020002000200020002000200020002000200020,
  0x5ed65ee35edd5eda5edb5ee25ee15ee85ee95eec5ef15ef35ef05ef45ef85efe,
  0x5f035f095f5d5f5c5f0b5f115f165f295f2d5f385f415f485f4c5f4e5f2f5f51,
  0x5f565f575f595f615f6d5f735f775f835f825f7f5f8a5f885f915f875f9e5f99,
  0x5f985fa05fa85fad5fbc5fd65ffb5fe45ff85ff15fdd60b35fff602160600020,
  0x601960106029600e6031601b6015602b6026600f603a605a6041606a6077605f,
  0x604a6046604d6063604360646042606c606b60596081608d60e76083609a6084,
  0x609b60966097609260a7608b60e160b860e060d360b45ff060bd60c660b560d8,
  0x614d6115610660f660f7610060f460fa6103612160fb60f1610d610e6147613e,
  0x61286127614a613f613c612c6134613d614261446173617761586159615a616b,
  0x6174616f61656171615f615d6153617561996196618761ac6194619a618a6191,
  0x61ab61ae61cc61ca61c961f761c861c361c661ba61cb7f7961cd61e661e361f6,
  0x61fa61f461ff61fd61fc61fe620062086209620d620c6214621b002000200020,
  0x0020002000200020002000200020002000200020002000200020002000200020,
  0x0020002000200020002000200020002000200020002000200020002000200020,
  0x0020002000200020002000200020002000200020002000200020002000200020,
  0x0020002000200020002000200020002000200020002000200020002000200020,
  0x621e6221622a622e6230623262336241624e625e6263625b62606268627c6282,
  0x6289627e62926293629662d46283629462d762d162bb62cf62ff62c664d462c8,
  0x62dc62cc62ca62c262c7629b62c9630c62ee62f163276302630862ef62f56350,
  0x633e634d641c634f6396638e638063ab637663a3638f6389639f63b5636b0020,
  0x636963be63e963c063c663e363c963d263f663c4641664346406641364266436,
  0x651d64176428640f6467646f6476644e652a6495649364a564a9648864bc64da,
  0x64d264c564c764bb64d864c264f164e7820964e064e162ac64e364ef652c64f6,
  0x64f464f264fa650064fd6518651c650565246523652b65346535653765366538,
  0x754b654865566555654d6558655e655d65726578658265838b8a659b659f65ab,
  0x65b765c365c665c165c465cc65d265db65d965e065e165f16772660a660365fb,
  0x6773663566366634661c664f664466496641665e665d666466676668665f6662,
  0x667066836688668e668966846698669d66c166b966c966be66bc002000200020,
  0x0020002000200020002000200020002000200020002000200020002000200020,
  0x0020002000200020002000200020002000200020002000200020002000200020,
  0x0020002000200020002000200020002000200020002000200020002000200020,
  0x0020002000200020002000200020002000200020002000200020002000200020,
  0x66c466b866d666da66e0663f66e666e966f066f566f7670f6716671e67266727,
  0x9738672e673f67366741673867376746675e67606759676367646789677067a9,
  0x677c676a678c678b67a667a1678567b767ef67b467ec67b367e967b867e467de,
  0x67dd67e267ee67b967ce67c667e76a9c681e684668296840684d6832684e0020,
  0x68b3682b685968636877687f689f688f68ad6894689d689b68836aae68b96874,
  0x68b568a068ba690f688d687e690168ca690868d86922692668e1690c68cd68d4,
  0x68e768d569366912690468d768e3692568f968e068ef6928692a691a69236921,
  0x68c669796977695c6978696b6954697e696e69396974693d695969306961695e,
  0x695d6981696a69b269ae69d069bf69c169d369be69ce5be869ca69dd69bb69c3,
  0x69a76a2e699169a0699c699569b469de69e86a026a1b69ff6b0a69f969f269e7,
  0x6a0569b16a1e69ed6a1469eb6a0a6a126ac16a236a136a446a0c6a726a366a78,
  0x6a476a626a596a666a486a386a226a906a8d6aa06a846aa26aa3002000200020,
  0x0020002000200020002000200020002000200020002000200020002000200020,
  0x0020002000200020002000200020002000200020002000200020002000200020,
  0x0020002000200020002000200020002000200020002000200020002000200020,
  0x0020002000200020002000200020002000200020002000200020002000200020,
  0x6a9786176abb6ac36ac26ab86ab36aac6ade6ad16adf6aaa6ada6aea6afb6b05,
  0x86166afa6b126b169b316b1f6b386b3776dc6b3998ee6b476b436b496b506b59,
  0x6b546b5b6b5f6b616b786b796b7f6b806b846b836b8d6b986b956b9e6ba46baa,
  0x6bab6baf6bb26bb16bb36bb76bbc6bc66bcb6bd36bdf6bec6beb6bf36bef0020,
  0x9ebe6c086c136c146c1b6c246c236c5e6c556c626c6a6c826c8d6c9a6c816c9b,
  0x6c7e6c686c736c926c906cc46cf16cd36cbd6cd76cc56cdd6cae6cb16cbe6cba,
  0x6cdb6cef6cd96cea6d1f884d6d366d2b6d3d6d386d196d356d336d126d0c6d63,
  0x6d936d646d5a6d796d596d8e6d956fe46d856df96e156e0a6db56dc76de66db8,
  0x6dc66dec6dde6dcc6de86dd26dc56dfa6dd96de46dd56dea6dee6e2d6e6e6e2e,
  0x6e196e726e5f6e3e6e236e6b6e2b6e766e4d6e1f6e436e3a6e4e6e246eff6e1d,
  0x6e386e826eaa6e986ec96eb76ed36ebd6eaf6ec46eb26ed46ed56e8f6ea56ec2,
  0x6e9f6f416f11704c6eec6ef86efe6f3f6ef26f316eef6f326ecc002000200020,
  0x0020002000200020002000200020002000200020002000200020002000200020,
  0x0020002000200020002000200020002000200020002000200020002000200020,
  0x0020002000200020002000200020002000200020002000200020002000200020,
  0x0020002000200020002000200020002000200020002000200020002000200020,
  0x6f3e6f136ef76f866f7a6f786f816f806f6f6f5b6ff36f6d6f826f7c6f586f8e,
  0x6f916fc26f666fb36fa36fa16fa46fb96fc66faa6fdf6fd56fec6fd46fd86ff1,
  0x6fee6fdb7009700b6ffa70117001700f6ffe701b701a6f74701d7018701f7030,
  0x703e7032705170637099709270af70f170ac70b870b370ae70df70cb70dd0020,
  0x70d9710970fd711c711971657155718871667162714c7156716c718f71fb7184,
  0x719571a871ac71d771b971be71d271c971d471ce71e071ec71e771f571fc71f9,
  0x71ff720d7210721b7228722d722c72307232723b723c723f72407246724b7258,
  0x7274727e7282728172877292729672a272a772b972b272c372c672c472ce72d2,
  0x72e272e072e172f972f7500f7317730a731c7316731d7334732f73297325733e,
  0x734e734f9ed87357736a7368737073787375737b737a73c873b373ce73bb73c0,
  0x73e573ee73de74a27405746f742573f87432743a7455743f745f74597441745c,
  0x746974707463746a7476747e748b749e74a774ca74cf74d473f1002000200020,
  0x0020002000200020002000200020002000200020002000200020002000200020,
  0x0020002000200020002000200020002000200020002000200020002000200020,
  0x0020002000200020002000200020002000200020002000200020002000200020,
  0x0020002000200020002000200020002000200020002000200020002000200020,
  0x74e074e374e774e974ee74f274f074f174f874f7750475037505750c750e750d,
  0x75157513751e7526752c753c7544754d754a7549755b7546755a756975647567,
  0x756b756d75787576758675877574758a758975827594759a759d75a575a375c2,
  0x75b375c375b575bd75b875bc75b175cd75ca75d275d975e375de75fe75ff0020,
  0x75fc760175f075fa75f275f3760b760d7609761f762776207621762276247634,
  0x7630763b764776487646765c76587661766276687669766a7667766c76707672,
  0x76767678767c768076837688768b768e769676937699769a76b076b476b876b9,
  0x76ba76c276cd76d676d276de76e176e576e776ea862f76fb7708770777047729,
  0x7724771e77257726771b773777387747775a7768776b775b7765777f777e7779,
  0x778e778b779177a0779e77b077b677b977bf77bc77bd77bb77c777cd77d777da,
  0x77dc77e377ee77fc780c781279267820792a7845788e78747886787c789a788c,
  0x78a378b578aa78af78d178c678cb78d478be78bc78c578ca78ec002000200020,
  0x0020002000200020002000200020002000200020002000200020002000200020,
  0x0020002000200020002000200020002000200020002000200020002000200020,
  0x0020002000200020002000200020002000200020002000200020002000200020,
  0x0020002000200020002000200020002000200020002000200020002000200020,
  0x78e778da78fd78f47907791279117919792c792b794079607957795f795a7955,
  0x7953797a797f798a799d79a79f4b79aa79ae79b379b979ba79c979d579e779ec,
  0x79e179e37a087a0d7a187a197a207a1f79807a317a3b7a3e7a377a437a577a49,
  0x7a617a627a699f9d7a707a797a7d7a887a977a957a987a967aa97ac87ab00020,
  0x7ab67ac57ac47abf90837ac77aca7acd7acf7ad57ad37ad97ada7add7ae17ae2,
  0x7ae67aed7af07b027b0f7b0a7b067b337b187b197b1e7b357b287b367b507b7a,
  0x7b047b4d7b0b7b4c7b457b757b657b747b677b707b717b6c7b6e7b9d7b987b9f,
  0x7b8d7b9c7b9a7b8b7b927b8f7b5d7b997bcb7bc17bcc7bcf7bb47bc67bdd7be9,
  0x7c117c147be67be57c607c007c077c137bf37bf77c177c0d7bf67c237c277c2a,
  0x7c1f7c377c2b7c3d7c4c7c437c547c4f7c407c507c587c5f7c647c567c657c6c,
  0x7c757c837c907ca47cad7ca27cab7ca17ca87cb37cb27cb17cae7cb97cbd7cc0,
  0x7cc57cc27cd87cd27cdc7ce29b3b7cef7cf27cf47cf67cfa7d06002000200020,
  0x0020002000200020002000200020002000200020002000200020002000200020,
  0x0020002000200020002000200020002000200020002000200020002000200020,
  0x0020002000200020002000200020002000200020002000200020002000200020,
  0x0020002000200020002000200020002000200020002000200020002000200020,
  0x7d027d1c7d157d0a7d457d4b7d2e7d327d3f7d357d467d737d567d4e7d727d68,
  0x7d6e7d4f7d637d937d897d5b7d8f7d7d7d9b7dba7dae7da37db57dc77dbd7dab,
  0x7e3d7da27daf7ddc7db87d9f7db07dd87ddd7de47dde7dfb7df27de17e057e0a,
  0x7e237e217e127e317e1f7e097e0b7e227e467e667e3b7e357e397e437e370020,
  0x7e327e3a7e677e5d7e567e5e7e597e5a7e797e6a7e697e7c7e7b7e837dd57e7d,
  0x8fae7e7f7e887e897e8c7e927e907e937e947e967e8e7e9b7e9c7f387f3a7f45,
  0x7f4c7f4d7f4e7f507f517f557f547f587f5f7f607f687f697f677f787f827f86,
  0x7f837f887f877f8c7f947f9e7f9d7f9a7fa37faf7fb27fb97fae7fb67fb88b71,
  0x7fc57fc67fca7fd57fd47fe17fe67fe97ff37ff998dc80068004800b80128018,
  0x8019801c80218028803f803b804a804680528058805a805f8062806880738072,
  0x807080768079807d807f808480868085809b8093809a80ad519080ac80db80e5,
  0x80d980dd80c480da80d6810980ef80f1811b81298123812f814b002000200020,
  0x0020002000200020002000200020002000200020002000200020002000200020,
  0x0020002000200020002000200020002000200020002000200020002000200020,
  0x0020002000200020002000200020002000200020002000200020002000200020,
  0x0020002000200020002000200020002000200020002000200020002000200020,
  0x968b8146813e8153815180fc8171816e81658166817481838188818a81808182,
  0x81a0819581a481a3815f819381a981b081b581be81b881bd81c081c281ba81c9,
  0x81cd81d181d981d881c881da81df81e081e781fa81fb81fe8201820282058207,
  0x820a820d821082168229822b82388233824082598258825d825a825f82640020,
  0x82628268826a826b822e827182778278827e828d829282ab829f82bb82ac82e1,
  0x82e382df82d282f482f382fa8393830382fb82f982de830682dc830982d98335,
  0x83348316833283318340833983508345832f832b831783188385839a83aa839f,
  0x83a283968323838e8387838a837c83b58373837583a0838983a883f4841383eb,
  0x83ce83fd840383d8840b83c183f7840783e083f2840d8422842083bd84388506,
  0x83fb846d842a843c855a84848477846b84ad846e848284698446842c846f8479,
  0x843584ca846284b984bf849f84d984cd84bb84da84d084c184c684d684a18521,
  0x84ff84f485178518852c851f8515851484fc8540856385588548002000200020,
  0x0020002000200020002000200020002000200020002000200020002000200020,
  0x0020002000200020002000200020002000200020002000200020002000200020,
  0x0020002000200020002000200020002000200020002000200020002000200020,
  0x0020002000200020002000200020002000200020002000200020002000200020,
  0x85418602854b8555858085a485888591858a85a8856d8594859b85ea8587859c,
  0x8577857e859085c985ba85cf85b985d085d585dd85e585dc85f9860a8613860b,
  0x85fe85fa86068622861a8630863f864d4e558654865f86678671869386a386a9,
  0x86aa868b868c86b686af86c486c686b086c9882386ab86d486de86e986ec0020,
  0x86df86db86ef8712870687088700870386fb87118709870d86f9870a8734873f,
  0x8737873b87258729871a8760875f8778874c874e877487578768876e87598753,
  0x8763876a880587a2879f878287af87cb87bd87c087d096d687ab87c487b387c7,
  0x87c687bb87ef87f287e0880f880d87fe87f687f7880e87d28811881688158822,
  0x88218831883688398827883b8844884288528859885e8862886b8881887e889e,
  0x8875887d88b5887288828897889288ae889988a2888d88a488b088bf88b188c3,
  0x88c488d488d888d988dd88f9890288fc88f488e888f28904890c890a89138943,
  0x891e8925892a892b89418944893b89368938894c891d8960895e002000200020,
  0x0020002000200020002000200020002000200020002000200020002000200020,
  0x0020002000200020002000200020002000200020002000200020002000200020,
  0x0020002000200020002000200020002000200020002000200020002000200020,
  0x0020002000200020002000200020002000200020002000200020002000200020,
  0x89668964896d896a896f89748977897e89838988898a8993899889a189a989a6,
  0x89ac89af89b289ba89bd89bf89c089da89dc89dd89e789f489f88a038a168a10,
  0x8a0c8a1b8a1d8a258a368a418a5b8a528a468a488a7c8a6d8a6c8a628a858a82,
  0x8a848aa88aa18a918aa58aa68a9a8aa38ac48acd8ac28ada8aeb8af38ae70020,
  0x8ae48af18b148ae08ae28af78ade8adb8b0c8b078b1a8ae18b168b108b178b20,
  0x8b3397ab8b268b2b8b3e8b288b418b4c8b4f8b4e8b498b568b5b8b5a8b6b8b5f,
  0x8b6c8b6f8b748b7d8b808b8c8b8e8b928b938b968b998b9a8c3a8c418c3f8c48,
  0x8c4c8c4e8c508c558c628c6c8c788c7a8c828c898c858c8a8c8d8c8e8c948c7c,
  0x8c98621d8cad8caa8cbd8cb28cb38cae8cb68cc88cc18ce48ce38cda8cfd8cfa,
  0x8cfb8d048d058d0a8d078d0f8d0d8d109f4e8d138ccd8d148d168d678d6d8d71,
  0x8d738d818d998dc28dbe8dba8dcf8dda8dd68dcc8ddb8dcb8dea8deb8ddf8de3,
  0x8dfc8e088e098dff8e1d8e1e8e108e1f8e428e358e308e348e4a002000200020,
  0x0020002000200020002000200020002000200020002000200020002000200020,
  0x0020002000200020002000200020002000200020002000200020002000200020,
  0x0020002000200020002000200020002000200020002000200020002000200020,
  0x0020002000200020002000200020002000200020002000200020002000200020,
  0x8e478e498e4c8e508e488e598e648e608e2a8e638e558e768e728e7c8e818e87,
  0x8e858e848e8b8e8a8e938e918e948e998eaa8ea18eac8eb08ec68eb18ebe8ec5,
  0x8ec88ecb8edb8ee38efc8efb8eeb8efe8f0a8f058f158f128f198f138f1c8f1f,
  0x8f1b8f0c8f268f338f3b8f398f458f428f3e8f4c8f498f468f4e8f578f5c0020,
  0x8f628f638f648f9c8f9f8fa38fad8faf8fb78fda8fe58fe28fea8fef90878ff4,
  0x90058ff98ffa901190159021900d901e9016900b90279036903590398ff8904f,
  0x905090519052900e9049903e90569058905e9068906f907696a890729082907d,
  0x90819080908a9089908f90a890af90b190b590e290e4624890db910291129119,
  0x91329130914a9156915891639165916991739172918b9189918291a291ab91af,
  0x91aa91b591b491ba91c091c191c991cb91d091d691df91e191db91fc91f591f6,
  0x921e91ff9214922c92159211925e925792459249926492489295923f924b9250,
  0x929c92969293929b925a92cf92b992b792e9930f92fa9344932e002000200020,
  0x0020002000200020002000200020002000200020002000200020002000200020,
  0x0020002000200020002000200020002000200020002000200020002000200020,
  0x0020002000200020002000200020002000200020002000200020002000200020,
  0x0020002000200020002000200020002000200020002000200020002000200020,
  0x93199322931a9323933a9335933b935c9360937c936e935693b093ac93ad9394,
  0x93b993d693d793e893e593d893c393dd93d093c893e4941a9414941394039407,
  0x94109436942b94359421943a944194529444945b94609462945e946a92299470,
  0x94759477947d945a947c947e9481947f95829587958a95949596959895990020,
  0x95a095a895a795ad95bc95bb95b995be95ca6ff695c395cd95cc95d595d495d6,
  0x95dc95e195e595e296219628962e962f9642964c964f964b9677965c965e965d,
  0x965f96669672966c968d96989695969796aa96a796b196b296b096b496b696b8,
  0x96b996ce96cb96c996cd894d96dc970d96d596f99704970697089713970e9711,
  0x970f971697199724972a97309739973d973e97449746974897429749975c9760,
  0x97649766976852d2976b977197799785977c9781977a9786978b978f9790979c,
  0x97a897a697a397b397b497c397c697c897cb97dc97ed9f4f97f27adf97f697f5,
  0x980f980c9838982498219837983d9846984f984b986b986f9870002000200020,
  0x0020002000200020002000200020002000200020002000200020002000200020,
  0x0020002000200020002000200020002000200020002000200020002000200020,
  0x0020002000200020002000200020002000200020002000200020002000200020,
  0x0020002000200020002000200020002000200020002000200020002000200020,
  0x98719874987398aa98af98b198b698c498c398c698e998eb9903990999129914,
  0x99189921991d991e99249920992c992e993d993e9942994999459950994b9951,
  0x9952994c99559997999899a599ad99ae99bc99df99db99dd99d899d199ed99ee,
  0x99f199f299fb99f89a019a0f9a0599e29a199a2b9a379a459a429a409a430020,
  0x9a3e9a559a4d9a5b9a579a5f9a629a659a649a699a6b9a6a9aad9ab09abc9ac0,
  0x9acf9ad19ad39ad49ade9adf9ae29ae39ae69aef9aeb9aee9af49af19af79afb,
  0x9b069b189b1a9b1f9b229b239b259b279b289b299b2a9b2e9b2f9b329b449b43,
  0x9b4f9b4d9b4e9b519b589b749b939b839b919b969b979b9f9ba09ba89bb49bc0,
  0x9bca9bb99bc69bcf9bd19bd29be39be29be49bd49be19c3a9bf29bf19bf09c15,
  0x9c149c099c139c0c9c069c089c129c0a9c049c2e9c1b9c259c249c219c309c47,
  0x9c329c469c3e9c5a9c609c679c769c789ce79cec9cf09d099d089ceb9d039d06,
  0x9d2a9d269daf9d239d1f9d449d159d129d419d3f9d3e9d469d48002000200020,
  0x0020002000200020002000200020002000200020002000200020002000200020,
  0x0020002000200020002000200020002000200020002000200020002000200020,
  0x0020002000200020002000200020002000200020002000200020002000200020,
  0x0020002000200020002000200020002000200020002000200020002000200020,
  0x9d5d9d5e9d649d519d509d599d729d899d879dab9d6f9d7a9d9a9da49da99db2,
  0x9dc49dc19dbb9db89dba9dc69dcf9dc29dd99dd39df89de69ded9def9dfd9e1a,
  0x9e1b9e1e9e759e799e7d9e819e889e8b9e8c9e929e959e919e9d9ea59ea99eb8,
  0x9eaa9ead97619ecc9ece9ecf9ed09ed49edc9ede9edd9ee09ee59ee89eef0020,
  0x9ef49ef69ef79ef99efb9efc9efd9f079f0876b79f159f219f2c9f3e9f4a9f52,
  0x9f549f639f5f9f609f619f669f679f6c9f6a9f779f729f769f959f9c9fa0582f,
  0x69c79059746451dc719900200020002000200020002000200020002000200020,
  0x0020002000200020002000200020002000200020002000200020002000200020,
  0x0020002000200020002000200020002000200020002000200020002000200020,
  0x0020002000200020002000200020002000200020002000200020002000200020,
  0x0020002000200020002000200020002000200020002000200020002000200020,
  0x0020002000200020002000200020002000200020002000200020002000200020,
  0x0020002000200020002000200020002000200020002000200020002000200020,
  0x0020002000200020002000200020002000200020002000200020002000200020,
  0x0020002000200020002000200020002000200020002000200020002000200020,
  0x0020002000200020002000200020002000200020002000200020002000200020,
  0x0020002000200020002000200020002000200020002000200020002000200020,
  0x0020002000200020002000200020002000200020002000200020002000200020,
  0x0020002000200020002000200020002000200020002000200020002000200020,
  0x0020002000200020002000200020002000200020002000200020002000200020,
  0x0020002000200020002000200020002000200020002000200020002000200020,
  0x0020002000200020002000200020002000200020002000200020002000200020,
  0x0020002000200020002000200020002000200020002000200020002000200020,
  0x0020002000200020002000200020002000200020002000200020002000200020,
  0x0020002000200020002000200020002000200020002000200020002000200020,
  0x0020002000200020002000200020002000200020002000200020002000200020,
  0x0020002000200020002000200020002000200020002000200020002000200020,
  0x0020002000200020002000200020002000200020002000200020002000200020,
  0x0020002000200020002000200020002000200020002000200020002000200020,
  0x0020002000200020002000200020002000200020002000200020002000200020,
  0x0020002000200020002000200020002000200020002000200020002000200020,
  0x0020002000200020002000200020002000200020002000200020002000200020,
  0x0020002000200020002000200020002000200020002000200020002000200020,
  0x0020002000200020002000200020002000200020002000200020002000200020,
  0x0020002000200020002000200020002000200020002000200020002000200020,
  0x0020002000200020002000200020002000200020002000200020002000200020,
  0x0020002000200020002000200020002000200020002000200020002000200020,
  0x0020002000200020002000200020002000200020002000200020002000200020,
  0x0020002000200020002000200020002000200020002000200020002000200020,
  0x0020002000200020002000200020002000200020002000200020002000200020,
  0x0020002000200020002000200020002000200020002000200020002000200020,
  0x0020002000200020002000200020002000200020002000200020002000200020,
  0x0020002000200020002000200020002000200020002000200020002000200020,
  0x0020002000200020002000200020002000200020002000200020002000200020,
  0x0020002000200020002000200020002000200020002000200020002000200020,
  0x0020002000200020002000200020002000200020002000200020002000200020,
  0x0020002000200020002000200020002000200020002000200020002000200020,
  0x0020002000200020002000200020002000200020002000200020002000200020,
  0x0020002000200020002000200020002000200020002000200020002000200020,
  0x0020002000200020002000200020002000200020002000200020002000200020,
  0x0020002000200020002000200020002000200020002000200020002000200020,
  0x0020002000200020002000200020002000200020002000200020002000200020,
  0x0020002000200020002000200020002000200020002000200020002000200020,
  0x0020002000200020002000200020002000200020002000200020002000200020,
  0x0020002000200020002000200020002000200020002000200020002000200020,
  0x0020002000200020002000200020002000200020002000200020002000200020,
  0x0020002000200020002000200020002000200020002000200020002000200020,
  0x0020002000200020002000200020002000200020002000200020002000200020,
  0x0020002000200020002000200020002000200020002000200020002000200020,
  0x0020002000200020002000200020002000200020002000200020002000200020,
  0x0020002000200020002000200020002000200020002000200020002000200020,
  0x0020002000200020002000200020002000200020002000200020002000200020,
  0x0020002000200020002000200020002000200020002000200020002000200020,
  0x0020002000200020002000200020002000200020002000200020002000200020,
  0x0020002000200020002000200020002000200020002000200020002000200020,
  0x0020002000200020002000200020002000200020002000200020002000200020,
  0x0020002000200020002000200020002000200020002000200020002000200020,
  0x0020002000200020002000200020002000200020002000200020002000200020,
  0x0020002000200020002000200020002000200020002000200020002000200020,
  0x0020002000200020002000200020002000200020002000200020002000200020,
  0x0020002000200020002000200020002000200020002000200020002000200020,
  0x0020002000200020002000200020002000200020002000200020002000200020,
  0x0020002000200020002000200020002000200020002000200020002000200020,
  0x0020002000200020002000200020002000200020002000200020002000200020,
  0x0020002000200020002000200020002000200020002000200020002000200020,
  0x0020002000200020002000200020002000200020002000200020002000200020,
  0x0020002000200020002000200020002000200020002000200020002000200020,
  0x0020002000200020002000200020002000200020002000200020002000200020,
  0x0020002000200020002000200020002000200020002000200020002000200020,
  0x0020002000200020002000200020002000200020002000200020002000200020,
  0x0020002000200020002000200020002000200020002000200020002000200020,
  0x0020002000200020002000200020002000200020002000200020002000200020,
  0x0020002000200020002000200020002000200020002000200020002000200020,
  0x0020002000200020002000200020002000200020002000200020002000200020,
  0x0020002000200020002000200020002000200020002000200020002000200020,
  0x0020002000200020002000200020002000200020002000200020002000200020,
  0x0020002000200020002000200020002000200020002000200020002000200020,
  0x0020002000200020002000200020002000200020002000200020002000200020,
  0x0020002000200020002000200020002000200020002000200020002000200020,
  0x0020002000200020002000200020002000200020002000200020002000200020,
  0x0020002000200020002000200020002000200020002000200020002000200020,
  0x0020002000200020002000200020002000200020002000200020002000200020]

/-- The byte of a row at a place. -/
def rowByte (row j : ℕ) : BitVec 8 := BitVec.ofNat 8 (row >>> (8 * (31 - j)))

/-- `pucTable[i]`, nothing outside of the table. -/
def pucTable (i : ℕ) : Option (BitVec 8) := pucRows[i / 32]?.map fun row => rowByte row (i % 32)

/-- The two bytes of an entry of a row. -/
def rowEntry (row j : ℕ) : BitVec 16 := rowByte row (2 * j) ++ rowByte row (2 * j + 1)

/-- A value that is no terminator and no surrogate. -/
def validValue (v : BitVec 16) : Bool := v ≠ 0 ∧ ¬(0xd800 ≤ v.toNat ∧ v.toNat < 0xe000)

/-- An entry of a row as a number. -/
def rowNumber (row j : ℕ) : ℕ := row / 2 ^ (16 * (15 - j)) % 65536

/-- `validValue` of a number. -/
def validNumber (v : ℕ) : Bool := Nat.ble 1 v && Nat.ble v 0xd7ff || Nat.ble 0xe000 v

theorem toNat_rowEntry {row j : ℕ} (hj : j < 16) : (rowEntry row j).toNat = rowNumber row j := by
  have hhigh : 8 * (31 - 2 * j) = 16 * (15 - j) + 8 := by omega
  have hlow : 8 * (31 - (2 * j + 1)) = 16 * (15 - j) := by omega
  rw [rowEntry, rowByte, rowByte, hhigh, hlow, BitVec.toNat_append, BitVec.toNat_ofNat,
    BitVec.toNat_ofNat, ← Nat.shiftLeft_add_eq_or_of_lt (Nat.mod_lt _ (by decide)),
    Nat.shiftRight_add, Nat.shiftRight_eq_div_pow _ 8, Nat.shiftRight_eq_div_pow, Nat.shiftLeft_eq,
    rowNumber]
  omega

theorem validValue_rowEntry {row j : ℕ} (hj : j < 16) :
    validValue (rowEntry row j) = validNumber (rowNumber row j) := by
  have hzero : rowEntry row j ≠ 0 ↔ rowNumber row j ≠ 0 := by
    rw [← toNat_rowEntry hj, ← BitVec.toNat_ne_iff_ne]
    rfl
  rw [Bool.eq_iff_iff]
  simp only [validValue, validNumber, Bool.and_eq_true, Bool.or_eq_true, decide_eq_true_eq, hzero,
    toNat_rowEntry hj, Nat.ble_eq]
  omega

set_option maxRecDepth 4000 in
/-- Every entry but the first of the first row. -/
theorem rows_valid :
    (∀ row ∈ pucRows.tail, ∀ j < 16, validNumber (rowNumber row j) = true) ∧
      ∀ row ∈ pucRows.head?, ∀ j < 16, j ≠ 0 → validNumber (rowNumber row j) = true := by
  decide

set_option maxRecDepth 4000 in
/-- The value at an offset of the table, in entries. -/
theorem pucTable_valid {k : ℕ} (hk : 2 * k < pucTableSize) (hne : k ≠ 0) :
    ∃ high low, pucTable (2 * k) = some high ∧ pucTable (2 * k + 1) = some low ∧
      validValue (high ++ low) = true := by
  have hlength : pucRows.length = 784 := by decide
  unfold pucTableSize at hk
  have hrow : k / 16 < pucRows.length := by omega
  have hread : ∀ j < 2, pucTable (2 * k + j) =
      some (rowByte pucRows[k / 16] (2 * (k % 16) + j)) := by
    intro j hj
    rw [pucTable, show (2 * k + j) / 32 = k / 16 by omega, List.getElem?_eq_getElem hrow,
      show (2 * k + j) % 32 = 2 * (k % 16) + j by omega]
    rfl
  have hplace : k % 16 < 16 := Nat.mod_lt _ (by decide)
  refine ⟨_, _, hread 0 (by decide), hread 1 (by decide), ?_⟩
  by_cases hfirst : k / 16 = 0
  · refine (validValue_rowEntry hplace).trans (rows_valid.2 _ ?_ (k % 16) hplace (by omega))
    simp only [hfirst]
    rfl
  · refine (validValue_rowEntry hplace).trans (rows_valid.1 _ ?_ (k % 16) hplace)
    rw [List.mem_iff_getElem]
    refine ⟨k / 16 - 1, by rw [List.length_tail]; omega, ?_⟩
    rw [List.getElem_tail]
    congr 1
    omega

end Mupen64plus
