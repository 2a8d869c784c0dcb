/-!
The changes of local time that follow no yearly rule.
-/

namespace VolumeWatch.Calendar

/-- From a second of universal time on, local time is a number of seconds ahead. -/
structure OffsetChange where
  start : Int
  offset : Int

namespace ZoneTable

def change (start offset : Int) : OffsetChange := ⟨start, offset⟩

/-- Eastern time in North America, to the end of 2006. -/
def newYork : List OffsetChange := [
  change (-2717650800) (-18000), change (-1633280400) (-14400), change (-1615140000) (-18000),
  change (-1601830800) (-14400), change (-1583690400) (-18000), change (-1570381200) (-14400),
  change (-1551636000) (-18000), change (-1536512400) (-14400), change (-1523210400) (-18000),
  change (-1504458000) (-14400), change (-1491760800) (-18000), change (-1473008400) (-14400),
  change (-1459706400) (-18000), change (-1441558800) (-14400), change (-1428256800) (-18000),
  change (-1410109200) (-14400), change (-1396807200) (-18000), change (-1378659600) (-14400),
  change (-1365357600) (-18000), change (-1347210000) (-14400), change (-1333908000) (-18000),
  change (-1315155600) (-14400), change (-1301853600) (-18000), change (-1283706000) (-14400),
  change (-1270404000) (-18000), change (-1252256400) (-14400), change (-1238954400) (-18000),
  change (-1220806800) (-14400), change (-1207504800) (-18000), change (-1189357200) (-14400),
  change (-1176055200) (-18000), change (-1157302800) (-14400), change (-1144605600) (-18000),
  change (-1125853200) (-14400), change (-1112551200) (-18000), change (-1094403600) (-14400),
  change (-1081101600) (-18000), change (-1062954000) (-14400), change (-1049652000) (-18000),
  change (-1031504400) (-14400), change (-1018202400) (-18000), change (-1000054800) (-14400),
  change (-986752800) (-18000), change (-968000400) (-14400), change (-955303200) (-18000),
  change (-936550800) (-14400), change (-923248800) (-18000), change (-905101200) (-14400),
  change (-891799200) (-18000), change (-880218000) (-14400), change (-765396000) (-18000),
  change (-747248400) (-14400), change (-733946400) (-18000), change (-715798800) (-14400),
  change (-702496800) (-18000), change (-684349200) (-14400), change (-671047200) (-18000),
  change (-652899600) (-14400), change (-639597600) (-18000), change (-620845200) (-14400),
  change (-608148000) (-18000), change (-589395600) (-14400), change (-576093600) (-18000),
  change (-557946000) (-14400), change (-544644000) (-18000), change (-526496400) (-14400),
  change (-513194400) (-18000), change (-495046800) (-14400), change (-481744800) (-18000),
  change (-463597200) (-14400), change (-447271200) (-18000), change (-431542800) (-14400),
  change (-415821600) (-18000), change (-400093200) (-14400), change (-384372000) (-18000),
  change (-368643600) (-14400), change (-352922400) (-18000), change (-337194000) (-14400),
  change (-321472800) (-18000), change (-305744400) (-14400), change (-289418400) (-18000),
  change (-273690000) (-14400), change (-257968800) (-18000), change (-242240400) (-14400),
  change (-226519200) (-18000), change (-210790800) (-14400), change (-195069600) (-18000),
  change (-179341200) (-14400), change (-163620000) (-18000), change (-147891600) (-14400),
  change (-131565600) (-18000), change (-116442000) (-14400), change (-100116000) (-18000),
  change (-84387600) (-14400), change (-68666400) (-18000), change (-52938000) (-14400),
  change (-37216800) (-18000), change (-21488400) (-14400), change (-5767200) (-18000),
  change 9961200 (-14400), change 25682400 (-18000), change 41410800 (-14400),
  change 57736800 (-18000), change 73465200 (-14400), change 89186400 (-18000),
  change 104914800 (-14400), change 120636000 (-18000), change 126687600 (-14400),
  change 152085600 (-18000), change 162370800 (-14400), change 183535200 (-18000),
  change 199263600 (-14400), change 215589600 (-18000), change 230713200 (-14400),
  change 247039200 (-18000), change 262767600 (-14400), change 278488800 (-18000),
  change 294217200 (-14400), change 309938400 (-18000), change 325666800 (-14400),
  change 341388000 (-18000), change 357116400 (-14400), change 372837600 (-18000),
  change 388566000 (-14400), change 404892000 (-18000), change 420015600 (-14400),
  change 436341600 (-18000), change 452070000 (-14400), change 467791200 (-18000),
  change 483519600 (-14400), change 499240800 (-18000), change 514969200 (-14400),
  change 530690400 (-18000), change 544604400 (-14400), change 562140000 (-18000),
  change 576054000 (-14400), change 594194400 (-18000), change 607503600 (-14400),
  change 625644000 (-18000), change 638953200 (-14400), change 657093600 (-18000),
  change 671007600 (-14400), change 688543200 (-18000), change 702457200 (-14400),
  change 719992800 (-18000), change 733906800 (-14400), change 752047200 (-18000),
  change 765356400 (-14400), change 783496800 (-18000), change 796806000 (-14400),
  change 814946400 (-18000), change 828860400 (-14400), change 846396000 (-18000),
  change 860310000 (-14400), change 877845600 (-18000), change 891759600 (-14400),
  change 909295200 (-18000), change 923209200 (-14400), change 941349600 (-18000),
  change 954658800 (-14400), change 972799200 (-18000), change 986108400 (-14400),
  change 1004248800 (-18000), change 1018162800 (-14400), change 1035698400 (-18000),
  change 1049612400 (-14400), change 1067148000 (-18000), change 1081062000 (-14400),
  change 1099202400 (-18000), change 1112511600 (-14400), change 1130652000 (-18000),
  change 1143961200 (-14400), change 1162101600 (-18000)]

/-- Central time in North America, to the end of 2006. -/
def chicago : List OffsetChange := [
  change (-2717647200) (-21600), change (-1633276800) (-18000), change (-1615136400) (-21600),
  change (-1601827200) (-18000), change (-1583686800) (-21600), change (-1563724800) (-18000),
  change (-1551632400) (-21600), change (-1538928000) (-18000), change (-1520182800) (-21600),
  change (-1504454400) (-18000), change (-1491757200) (-21600), change (-1473004800) (-18000),
  change (-1459702800) (-21600), change (-1441555200) (-18000), change (-1428253200) (-21600),
  change (-1410105600) (-18000), change (-1396803600) (-21600), change (-1378656000) (-18000),
  change (-1365354000) (-21600), change (-1347206400) (-18000), change (-1333904400) (-21600),
  change (-1315152000) (-18000), change (-1301850000) (-21600), change (-1283702400) (-18000),
  change (-1270400400) (-21600), change (-1252252800) (-18000), change (-1238950800) (-21600),
  change (-1220803200) (-18000), change (-1207501200) (-21600), change (-1189353600) (-18000),
  change (-1176051600) (-21600), change (-1157299200) (-18000), change (-1144602000) (-21600),
  change (-1125849600) (-18000), change (-1112547600) (-21600), change (-1094400000) (-18000),
  change (-1081098000) (-21600), change (-1067788800) (-18000), change (-1045414800) (-21600),
  change (-1031500800) (-18000), change (-1018198800) (-21600), change (-1000051200) (-18000),
  change (-986749200) (-21600), change (-967996800) (-18000), change (-955299600) (-21600),
  change (-936547200) (-18000), change (-923245200) (-21600), change (-905097600) (-18000),
  change (-891795600) (-21600), change (-880214400) (-18000), change (-765392400) (-21600),
  change (-747244800) (-18000), change (-733942800) (-21600), change (-715795200) (-18000),
  change (-702493200) (-21600), change (-684345600) (-18000), change (-671043600) (-21600),
  change (-652896000) (-18000), change (-639594000) (-21600), change (-620841600) (-18000),
  change (-608144400) (-21600), change (-589392000) (-18000), change (-576090000) (-21600),
  change (-557942400) (-18000), change (-544640400) (-21600), change (-526492800) (-18000),
  change (-513190800) (-21600), change (-495043200) (-18000), change (-481741200) (-21600),
  change (-463593600) (-18000), change (-447267600) (-21600), change (-431539200) (-18000),
  change (-415818000) (-21600), change (-400089600) (-18000), change (-384368400) (-21600),
  change (-368640000) (-18000), change (-352918800) (-21600), change (-337190400) (-18000),
  change (-321469200) (-21600), change (-305740800) (-18000), change (-289414800) (-21600),
  change (-273686400) (-18000), change (-257965200) (-21600), change (-242236800) (-18000),
  change (-226515600) (-21600), change (-210787200) (-18000), change (-195066000) (-21600),
  change (-179337600) (-18000), change (-163616400) (-21600), change (-147888000) (-18000),
  change (-131562000) (-21600), change (-116438400) (-18000), change (-100112400) (-21600),
  change (-84384000) (-18000), change (-68662800) (-21600), change (-52934400) (-18000),
  change (-37213200) (-21600), change (-21484800) (-18000), change (-5763600) (-21600),
  change 9964800 (-18000), change 25686000 (-21600), change 41414400 (-18000),
  change 57740400 (-21600), change 73468800 (-18000), change 89190000 (-21600),
  change 104918400 (-18000), change 120639600 (-21600), change 126691200 (-18000),
  change 152089200 (-21600), change 162374400 (-18000), change 183538800 (-21600),
  change 199267200 (-18000), change 215593200 (-21600), change 230716800 (-18000),
  change 247042800 (-21600), change 262771200 (-18000), change 278492400 (-21600),
  change 294220800 (-18000), change 309942000 (-21600), change 325670400 (-18000),
  change 341391600 (-21600), change 357120000 (-18000), change 372841200 (-21600),
  change 388569600 (-18000), change 404895600 (-21600), change 420019200 (-18000),
  change 436345200 (-21600), change 452073600 (-18000), change 467794800 (-21600),
  change 483523200 (-18000), change 499244400 (-21600), change 514972800 (-18000),
  change 530694000 (-21600), change 544608000 (-18000), change 562143600 (-21600),
  change 576057600 (-18000), change 594198000 (-21600), change 607507200 (-18000),
  change 625647600 (-21600), change 638956800 (-18000), change 657097200 (-21600),
  change 671011200 (-18000), change 688546800 (-21600), change 702460800 (-18000),
  change 719996400 (-21600), change 733910400 (-18000), change 752050800 (-21600),
  change 765360000 (-18000), change 783500400 (-21600), change 796809600 (-18000),
  change 814950000 (-21600), change 828864000 (-18000), change 846399600 (-21600),
  change 860313600 (-18000), change 877849200 (-21600), change 891763200 (-18000),
  change 909298800 (-21600), change 923212800 (-18000), change 941353200 (-21600),
  change 954662400 (-18000), change 972802800 (-21600), change 986112000 (-18000),
  change 1004252400 (-21600), change 1018166400 (-18000), change 1035702000 (-21600),
  change 1049616000 (-18000), change 1067151600 (-21600), change 1081065600 (-18000),
  change 1099206000 (-21600), change 1112515200 (-18000), change 1130655600 (-21600),
  change 1143964800 (-18000), change 1162105200 (-21600)]

/-- Britain, to the end of 1995. -/
def london : List OffsetChange := [
  change (-3852662325) 0, change (-1691964000) 3600, change (-1680472800) 0,
  change (-1664143200) 3600, change (-1650146400) 0, change (-1633903200) 3600,
  change (-1617487200) 0, change (-1601848800) 3600, change (-1586037600) 0,
  change (-1570399200) 3600, change (-1552168800) 0, change (-1538344800) 3600,
  change (-1522533600) 0, change (-1507500000) 3600, change (-1490565600) 0,
  change (-1473631200) 3600, change (-1460930400) 0, change (-1442786400) 3600,
  change (-1428876000) 0, change (-1410732000) 3600, change (-1396216800) 0,
  change (-1379282400) 3600, change (-1364767200) 0, change (-1348437600) 3600,
  change (-1333317600) 0, change (-1315778400) 3600, change (-1301263200) 0,
  change (-1284328800) 3600, change (-1269813600) 0, change (-1253484000) 3600,
  change (-1238364000) 0, change (-1221429600) 3600, change (-1206914400) 0,
  change (-1189980000) 3600, change (-1175464800) 0, change (-1159135200) 3600,
  change (-1143410400) 0, change (-1126476000) 3600, change (-1111960800) 0,
  change (-1095631200) 3600, change (-1080511200) 0, change (-1063576800) 3600,
  change (-1049061600) 0, change (-1032127200) 3600, change (-1017612000) 0,
  change (-1001282400) 3600, change (-986162400) 0, change (-969228000) 3600,
  change (-950479200) 0, change (-942012000) 3600, change (-904518000) 7200,
  change (-896050800) 3600, change (-875487600) 7200, change (-864601200) 3600,
  change (-844038000) 7200, change (-832546800) 3600, change (-812588400) 7200,
  change (-798073200) 3600, change (-781052400) 7200, change (-772066800) 3600,
  change (-764805600) 0, change (-748476000) 3600, change (-733356000) 0, change (-719445600) 3600,
  change (-717030000) 7200, change (-706748400) 3600, change (-699487200) 0,
  change (-687996000) 3600, change (-668037600) 0, change (-654732000) 3600, change (-636588000) 0,
  change (-622072800) 3600, change (-605743200) 0, change (-590623200) 3600, change (-574293600) 0,
  change (-558568800) 3600, change (-542239200) 0, change (-527119200) 3600, change (-512604000) 0,
  change (-496274400) 3600, change (-481154400) 0, change (-464220000) 3600, change (-449704800) 0,
  change (-432165600) 3600, change (-417650400) 0, change (-401320800) 3600, change (-386200800) 0,
  change (-369266400) 3600, change (-354751200) 0, change (-337816800) 3600, change (-323301600) 0,
  change (-306972000) 3600, change (-291852000) 0, change (-276732000) 3600, change (-257983200) 0,
  change (-245282400) 3600, change (-226533600) 0, change (-213228000) 3600, change (-195084000) 0,
  change (-182383200) 3600, change (-163634400) 0, change (-150933600) 3600, change (-132184800) 0,
  change (-119484000) 3600, change (-100735200) 0, change (-88034400) 3600, change (-68680800) 0,
  change (-59004000) 3600, change 57722400 0, change 69818400 3600, change 89172000 0,
  change 101268000 3600, change 120621600 0, change 132717600 3600, change 152071200 0,
  change 164167200 3600, change 183520800 0, change 196221600 3600, change 214970400 0,
  change 227671200 3600, change 246420000 0, change 259120800 3600, change 278474400 0,
  change 290570400 3600, change 309924000 0, change 322020000 3600, change 341373600 0,
  change 354675600 3600, change 372819600 0, change 386125200 3600, change 404269200 0,
  change 417574800 3600, change 435718800 0, change 449024400 3600, change 467773200 0,
  change 481078800 3600, change 499222800 0, change 512528400 3600, change 530672400 0,
  change 543978000 3600, change 562122000 0, change 575427600 3600, change 593571600 0,
  change 606877200 3600, change 625626000 0, change 638326800 3600, change 657075600 0,
  change 670381200 3600, change 688525200 0, change 701830800 3600, change 719974800 0,
  change 733280400 3600, change 751424400 0, change 764730000 3600, change 782874000 0,
  change 796179600 3600, change 814323600 0]

def tokyo : List OffsetChange := [
  change (-2587712400) 32400, change (-683802000) 36000, change (-672310800) 32400,
  change (-654771600) 36000, change (-640861200) 32400, change (-620298000) 36000,
  change (-609411600) 32400, change (-588848400) 36000, change (-577962000) 32400]

def kolkata : List OffsetChange := [
  change (-3645237208) 21200, change (-3155694800) 19270, change (-2019705670) 19800,
  change (-891581400) 23400, change (-872058600) 19800, change (-862637400) 23400,
  change (-764145000) 19800]

/-- New South Wales, to the end of 2007. -/
def sydney : List OffsetChange := [
  change (-2364113092) 36000, change (-1672560000) 39600, change (-1665388800) 36000,
  change (-883641600) 39600, change (-876124800) 36000, change (-860400000) 39600,
  change (-844675200) 36000, change (-828345600) 39600, change (-813225600) 36000,
  change 57686400 39600, change 67968000 36000, change 89136000 39600, change 100022400 36000,
  change 120585600 39600, change 131472000 36000, change 152035200 39600, change 162921600 36000,
  change 183484800 39600, change 194976000 36000, change 215539200 39600, change 226425600 36000,
  change 246988800 39600, change 257875200 36000, change 278438400 39600, change 289324800 36000,
  change 309888000 39600, change 320774400 36000, change 341337600 39600, change 352224000 36000,
  change 372787200 39600, change 386697600 36000, change 404841600 39600, change 415728000 36000,
  change 436291200 39600, change 447177600 36000, change 467740800 39600, change 478627200 36000,
  change 499190400 39600, change 511286400 36000, change 530035200 39600, change 542736000 36000,
  change 562089600 39600, change 574790400 36000, change 594144000 39600, change 606240000 36000,
  change 625593600 39600, change 636480000 36000, change 657043200 39600, change 667929600 36000,
  change 688492800 39600, change 699379200 36000, change 719942400 39600, change 731433600 36000,
  change 751996800 39600, change 762883200 36000, change 783446400 39600, change 794332800 36000,
  change 814896000 39600, change 828201600 36000, change 846345600 39600, change 859651200 36000,
  change 877795200 39600, change 891100800 36000, change 909244800 39600, change 922550400 36000,
  change 941299200 39600, change 954000000 36000, change 967305600 39600, change 985449600 36000,
  change 1004198400 39600, change 1017504000 36000, change 1035648000 39600,
  change 1048953600 36000, change 1067097600 39600, change 1080403200 36000,
  change 1099152000 39600, change 1111852800 36000, change 1130601600 39600,
  change 1143907200 36000, change 1162051200 39600, change 1174752000 36000,
  change 1193500800 39600]

end ZoneTable

end VolumeWatch.Calendar
